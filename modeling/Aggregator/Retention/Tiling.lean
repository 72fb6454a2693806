/-
  The ranges of the partitions of a table follow one another
  (`internal/retention/partitions.go`).

  A name ends in the digits of a year and of a week or month, so what is read off it is
  known (`parse_weeklyName`, `parse_monthlyName`).  The days are counted from a Monday,
  and week 1 of a year is the one of January 4.

  * `isoWeeks`: the years with 53 weeks are those that start on a Thursday, or on a
    Wednesday if they are leap years;
  * `weekOneMonday_succ`: these are the weeks between the weeks 1 of two years;
  * `partitions_tile`: every range ends where that of the next name starts, and the
    weeks and months are those of the calendar.
-/
import Aggregator.Go.Calendar
import Aggregator.Retention.Partitions

namespace Aggregator.Retention

open Aggregator.Go

/-! ## Weeks -/

/-- The Monday of week 1. -/
def weekOneMonday (year : ℤ) : ℤ := dayOfDate ⟨year, 1, 4⟩ - dayOfDate ⟨year, 1, 4⟩ % 7

theorem isoWeekStart_eq (year week : ℤ) :
    isoWeekStart year week = (weekOneMonday year + (week - 1) * 7) * day := by
  simp only [isoWeekStart, weekOneMonday, weekday]
  congr 1
  generalize dayOfDate ⟨year, 1, 4⟩ = jan4
  split_ifs <;> omega

/-- The number of weeks of a year. -/
def isoWeeks (year : ℤ) : ℤ :=
  let jan1 := weekday (dayOfDate ⟨year, 1, 1⟩)
  if jan1 = 4 ∨ isLeap year ∧ jan1 = 3 then 53 else 52

theorem isoWeeks_bounds (year : ℤ) : 52 ≤ isoWeeks year ∧ isoWeeks year ≤ 53 := by
  unfold isoWeeks
  dsimp only
  split <;> omega

/-- **The weeks of a year** fill the time up to week 1 of the next one. -/
theorem weekOneMonday_succ (year : ℤ) :
    weekOneMonday (year + 1) = weekOneMonday year + 7 * isoWeeks year := by
  have hjan1 : dayOfDate ⟨year, 1, 1⟩ = dayOfDate ⟨year, 1, 4⟩ - 3 := by
    rw [dayOfDate_january, dayOfDate_january]
    omega
  simp only [weekOneMonday, isoWeeks, dayOfDate_succ_year, daysInYear, weekday, hjan1]
  generalize dayOfDate ⟨year, 1, 4⟩ = jan4
  by_cases hleap : isLeap year
  · simp only [hleap, ↓reduceIte, true_and]
    split <;> omega
  · simp only [hleap, Bool.false_eq_true, ↓reduceIte, false_and, or_false]
    split <;> omega

theorem weekOneMonday_strictMono : StrictMono weekOneMonday := by
  refine strictMono_int_of_lt_succ fun year => ?_
  have := isoWeeks_bounds year
  rw [weekOneMonday_succ]
  omega

/-- A week has January 4 of some year only if it is week 1 of that year. -/
theorem mem_week_iff {year week year' : ℤ} (h₀ : 1 ≤ week) (h₁ : week ≤ isoWeeks year) :
    weekOneMonday year + (week - 1) * 7 ≤ dayOfDate ⟨year', 1, 4⟩ ∧
        dayOfDate ⟨year', 1, 4⟩ < weekOneMonday year + (week - 1) * 7 + 7 ↔
      week = 1 ∧ year' = year := by
  have hfirst : weekOneMonday year' ≤ dayOfDate ⟨year', 1, 4⟩ ∧
      dayOfDate ⟨year', 1, 4⟩ < weekOneMonday year' + 7 := by
    unfold weekOneMonday
    omega
  have hsucc := weekOneMonday_succ year
  have hsucc' := weekOneMonday_succ year'
  have hweeks' := isoWeeks_bounds year'
  constructor
  · rintro ⟨hle, hlt⟩
    have hyear' : year' < year + 1 := weekOneMonday_strictMono.lt_iff_lt.1 (by omega)
    have hyear : year < year' + 1 := weekOneMonday_strictMono.lt_iff_lt.1 (by omega)
    obtain rfl : year' = year := by omega
    omega
  · rintro ⟨rfl, rfl⟩
    omega

/-! ## Names -/

/-- The name of a table, up to its `stem`, for a week. -/
def weeklyName (stem : String) (year week : ℤ) : String :=
  stem ++ "_" ++ padLeft 4 year ++ "_w" ++ padLeft 2 week

def monthlyName (stem : String) (year month : ℤ) : String :=
  stem ++ "_" ++ padLeft 4 year ++ "_" ++ padLeft 2 month

/-- The name is not refused as that of a partition of another table. -/
def OfParent (parentTable name : String) : Prop :=
  parentTable = "" ∨ (toLower parentTable ++ "_").toList.isPrefixOf (toLower (trimSpace name)).toList

theorem isDigit_padLeft {width : ℕ} {n : ℤ} (h : 0 ≤ n) :
    ∀ c ∈ (padLeft width n).toList, c.isDigit = true := by
  obtain ⟨zeros, hlist⟩ := toList_padLeft width n
  rw [hlist, if_neg (not_lt.2 h), List.nil_append]
  intro c hc
  rcases List.mem_append.1 hc with hc | hc
  · rw [List.eq_of_mem_replicate hc]
    rfl
  · exact Nat.isDigit_of_mem_toDigits (by decide) (by decide) hc

theorem decimal_digits {cs : List Char} (h : ∀ c ∈ cs, c.isDigit = true) :
    decimal cs = some (Nat.ofDigitChars 10 cs 0 : ℤ) := by
  have hfold : ∀ (cs : List Char) (n : ℕ), (∀ c ∈ cs, c.isDigit = true) →
      cs.foldlM (fun (n : ℤ) c => if c.isDigit then some (10 * n + (c.toNat - '0'.toNat : ℤ))
        else none) (n : ℤ) = some (Nat.ofDigitChars 10 cs n : ℤ) := by
    intro cs
    induction cs with
    | nil => exact fun n _ => rfl
    | cons c cs ih =>
      intro n h
      obtain ⟨hc, hcs⟩ := List.forall_mem_cons.1 h
      have hzero : '0'.toNat ≤ c.toNat := by
        simp only [Char.isDigit, Bool.and_eq_true, decide_eq_true_eq] at hc
        exact hc.1
      have hvalue : (10 * (n : ℤ) + (c.toNat - '0'.toNat : ℤ)) =
          ((10 * n + (c.toNat - '0'.toNat) : ℕ) : ℤ) := by
        rw [Nat.cast_add, Nat.cast_mul, Nat.cast_sub hzero]
        rfl
      rw [List.foldlM_cons, if_pos hc, hvalue, Nat.ofDigitChars_cons]
      exact ih _ hcs
  exact hfold cs 0 h

theorem decimal_padLeft {width : ℕ} {n : ℤ} (h : 0 ≤ n) :
    decimal (padLeft width n).toList = some n := by
  rw [decimal_digits (isDigit_padLeft h)]
  obtain ⟨zeros, hlist⟩ := toList_padLeft width n
  rw [hlist, if_neg (not_lt.2 h), List.nil_append, ofDigitChars_replicate,
    Nat.ofDigitChars_toDigits (by decide) le_rfl, Int.natAbs_of_nonneg h]

/-- Trimming a text that starts with no space at `c` and ends with a digit. -/
theorem trimSpace_append {stem : List Char} {c : Char} {mid : List Char} {last : Char}
    (hc : isSpace c = false) (hlast : last.isDigit = true) :
    trimSpace (String.ofList (stem ++ c :: (mid ++ [last]))) =
      String.ofList (stem.dropWhile isSpace ++ c :: (mid ++ [last])) := by
  have hspace : isSpace last = false := by
    have hdigits : ∀ n < 58, 48 ≤ n → isSpace (Char.ofNat n) = false := by decide
    simp only [Char.isDigit, Bool.and_eq_true, decide_eq_true_eq, UInt32.le_iff_toNat_le] at hlast
    exact Char.ofNat_toNat last ▸ hdigits last.toNat (Nat.lt_succ_of_le hlast.2) hlast.1
  have hdrop : (stem ++ c :: (mid ++ [last])).dropWhile isSpace =
      stem.dropWhile isSpace ++ c :: (mid ++ [last]) := by
    rw [List.dropWhile_append]
    split
    · rename_i hnil
      rw [List.isEmpty_iff.1 hnil, List.dropWhile_cons_of_neg (by simp [hc]), List.nil_append]
    · rfl
  rw [trimSpace, String.toList_ofList, hdrop, List.rdropWhile_eq_self_iff.2]
  intro hne
  simp [hspace]

theorem exists_year {year : ℤ} (h₀ : 0 ≤ year) (h₁ : year ≤ 9999) : ∃ a b c d,
    (padLeft 4 year).toList = [a, b, c, d] ∧ decimal [a, b, c, d] = some year := by
  have hlength : (padLeft 4 year).toList.length = 4 := length_padLeft (by decide) h₀ (by omega)
  obtain ⟨a, b, c, d, hlist⟩ := List.length_eq_four.1 hlength
  exact ⟨a, b, c, d, hlist, hlist ▸ decimal_padLeft h₀⟩

theorem exists_two {n : ℤ} (h₀ : 0 ≤ n) (h₁ : n ≤ 99) : ∃ a b,
    (padLeft 2 n).toList = [a, b] ∧ b.isDigit = true ∧ decimal [a, b] = some n := by
  have hlength : (padLeft 2 n).toList.length = 2 := length_padLeft_two h₀ (by omega)
  obtain ⟨a, b, hlist⟩ := List.length_eq_two.1 hlength
  have hmem : b ∈ (padLeft 2 n).toList := by simp [hlist]
  exact ⟨a, b, hlist, isDigit_padLeft h₀ b hmem, hlist ▸ decimal_padLeft h₀⟩

/-- A week is read off its name. -/
theorem weeklyPattern_weeklyName (stem : String) {year week : ℤ} (hy₀ : 0 ≤ year)
    (hy₁ : year ≤ 9999) (hw₀ : 0 ≤ week) (hw₁ : week ≤ 99) :
    monthlyPartitionPattern (trimSpace (weeklyName stem year week)) = none ∧
      weeklyPartitionPattern (trimSpace (weeklyName stem year week)) = some (year, week) := by
  obtain ⟨a, b, c, d, hyear, hyval⟩ := exists_year hy₀ hy₁
  obtain ⟨e, f, hweek, hf, hwval⟩ := exists_two hw₀ hw₁
  have hname : weeklyName stem year week =
      String.ofList (stem.toList ++ '_' :: ([a, b, c, d, '_', 'w', e] ++ [f])) := by
    apply String.toList_injective
    simp [weeklyName, hyear, hweek]
  rw [hname, trimSpace_append (by decide) hf]
  constructor
  · simp [monthlyPartitionPattern]
  · simp [weeklyPartitionPattern, hyval, hwval]

theorem monthlyPattern_monthlyName (stem : String) {year month : ℤ} (hy₀ : 0 ≤ year)
    (hy₁ : year ≤ 9999) (hm₀ : 0 ≤ month) (hm₁ : month ≤ 99) :
    monthlyPartitionPattern (trimSpace (monthlyName stem year month)) = some (year, month) := by
  obtain ⟨a, b, c, d, hyear, hyval⟩ := exists_year hy₀ hy₁
  obtain ⟨e, f, hmonth, hf, hmval⟩ := exists_two hm₀ hm₁
  have hname : monthlyName stem year month =
      String.ofList (stem.toList ++ '_' :: ([a, b, c, d, '_', e] ++ [f])) := by
    apply String.toList_injective
    simp [monthlyName, hyear, hmonth]
  rw [hname, trimSpace_append (by decide) hf]
  simp [monthlyPartitionPattern, hyval, hmval]

theorem not_refused {parentTable name : String} (h : OfParent parentTable name) :
    ¬ (parentTable ≠ "" ∧
      !(toLower parentTable ++ "_").toList.isPrefixOf (toLower (trimSpace name)).toList) := by
  rintro ⟨hparent, hname⟩
  rcases h with h | h
  · exact hparent h
  · rw [h] at hname
    simp at hname

/-- The range of a week. -/
theorem parse_weeklyName {parentTable stem : String} {year week : ℤ} (hy₀ : 0 ≤ year)
    (hy₁ : year ≤ 9999) (hw₀ : 1 ≤ week) (hw₁ : week ≤ 53)
    (h : OfParent parentTable (weeklyName stem year week)) :
    parsePartitionRange parentTable (weeklyName stem year week) =
      some (isoWeekStart year week, isoWeekStart year week + 7 * day) := by
  have hw : 0 ≤ week ∧ week ≤ 99 := by omega
  have hpattern := weeklyPattern_weeklyName stem hy₀ hy₁ hw.1 hw.2
  rw [parsePartitionRange, if_neg (not_refused h), hpattern.1, hpattern.2]
  exact if_neg (by omega)

/-- The range of a month. -/
theorem parse_monthlyName {parentTable stem : String} {year month : ℤ} (hy₀ : 0 ≤ year)
    (hy₁ : year ≤ 9999) (hm₀ : 1 ≤ month) (hm₁ : month ≤ 12)
    (h : OfParent parentTable (monthlyName stem year month)) :
    parsePartitionRange parentTable (monthlyName stem year month) =
      some (firstOfMonth (12 * year + (month - 1)) * day,
        firstOfMonth (12 * year + (month - 1) + 1) * day) := by
  rw [parsePartitionRange, if_neg (not_refused h),
    monthlyPattern_monthlyName stem hy₀ hy₁ (by omega) (by omega)]
  have hnext : (if month = 12 then monthStart (year + 1) 1 else monthStart year (month + 1)) =
      firstOfMonth (12 * year + (month - 1) + 1) * day := by
    split_ifs with hdec
    · have hindex : 12 * year + (month - 1) + 1 = 12 * (year + 1) + (1 - 1) := by omega
      rw [monthStart, hindex, firstOfMonth_date (by decide) (by decide)]
    · have hindex : 12 * year + (month - 1) + 1 = 12 * year + (month + 1 - 1) := by omega
      rw [monthStart, hindex, firstOfMonth_date (by omega) (by omega)]
  dsimp only
  rw [if_neg (by omega), hnext, firstOfMonth_date hm₀ hm₁, monthStart]

/-! ## The ranges follow one another -/

/-- Those of the names that are not refused have a range that starts at an instant. -/
def StartsAt (start : ℤ) (name : String → String) : Prop :=
  ∀ parentTable stem, OfParent parentTable (name stem) →
    ∃ stop, parsePartitionRange parentTable (name stem) = some (start, stop)

theorem startsAt_week {year week : ℤ} (hy₀ : 0 ≤ year) (hy₁ : year ≤ 9999) (hw₀ : 1 ≤ week)
    (hw₁ : week ≤ 53) : StartsAt (isoWeekStart year week) (weeklyName · year week) :=
  fun _ _ h => ⟨_, parse_weeklyName hy₀ hy₁ hw₀ hw₁ h⟩

theorem startsAt_month {year month : ℤ} (hy₀ : 0 ≤ year) (hy₁ : year ≤ 9999) (hm₀ : 1 ≤ month)
    (hm₁ : month ≤ 12) :
    StartsAt (firstOfMonth (12 * year + (month - 1)) * day) (monthlyName · year month) :=
  fun _ _ h => ⟨_, parse_monthlyName hy₀ hy₁ hm₀ hm₁ h⟩

theorem isoWeekStart_succ (year week : ℤ) :
    isoWeekStart year (week + 1) = isoWeekStart year week + 7 * day := by
  rw [isoWeekStart_eq, isoWeekStart_eq]
  ring

theorem isoWeekStart_succ_year (year : ℤ) :
    isoWeekStart (year + 1) 1 = isoWeekStart year (isoWeeks year) + 7 * day := by
  rw [isoWeekStart_eq, isoWeekStart_eq, weekOneMonday_succ]
  ring

theorem weekday_isoWeekStart (year week : ℤ) : weekday (isoWeekStart year week / day) = 1 := by
  rw [isoWeekStart_eq, Int.mul_ediv_cancel _ (by decide), weekday, weekOneMonday]
  omega

/-- An instant is between two days if its day is. -/
theorem mem_days_iff {first last t : ℤ} :
    first * day ≤ t ∧ t < last * day ↔ first ≤ t / day ∧ t / day < last := by
  have hday : 0 < day := by decide
  rw [Int.le_ediv_iff_mul_le hday, Int.ediv_lt_iff_lt_mul hday]

/-- **The partitions tile the calendar**, whatever table they belong to: the weeks of a
    year are those from the Monday before January 5 to week 1 of the next year, and a
    month has the instants of that month; each ends where the next one starts. -/
theorem partitions_tile (year : ℤ) (hy₀ : 0 ≤ year) (hy₁ : year ≤ 9999) :
    (∀ week, 1 ≤ week → week ≤ isoWeeks year → ∃ start stop,
      (∀ parentTable stem, OfParent parentTable (weeklyName stem year week) →
        parsePartitionRange parentTable (weeklyName stem year week) = some (start, stop)) ∧
      day ∣ start ∧ weekday (start / day) = 1 ∧ stop = start + 7 * day ∧
      (∀ year', (start ≤ dayOfDate ⟨year', 1, 4⟩ * day ∧ dayOfDate ⟨year', 1, 4⟩ * day < stop) ↔
        week = 1 ∧ year' = year) ∧
      (week < isoWeeks year → StartsAt stop (weeklyName · year (week + 1))) ∧
      (week = isoWeeks year → stop = isoWeekStart (year + 1) 1 ∧
        (year < 9999 → StartsAt stop (weeklyName · (year + 1) 1)))) ∧
    (∀ month, 1 ≤ month → month ≤ 12 → ∃ start stop,
      (∀ parentTable stem, OfParent parentTable (monthlyName stem year month) →
        parsePartitionRange parentTable (monthlyName stem year month) = some (start, stop)) ∧
      start = dayOfDate ⟨year, month, 1⟩ * day ∧
      (∀ t, (start ≤ t ∧ t < stop) ↔
        (dateOfDay (t / day)).year = year ∧ (dateOfDay (t / day)).month = month) ∧
      (month < 12 → StartsAt stop (monthlyName · year (month + 1))) ∧
      (month = 12 → stop = dayOfDate ⟨year + 1, 1, 1⟩ * day ∧
        (year < 9999 → StartsAt stop (monthlyName · (year + 1) 1)))) := by
  have hweeks := isoWeeks_bounds year
  refine ⟨fun week hw₀ hw₁ => ?_, fun month hm₀ hm₁ => ?_⟩
  · refine ⟨isoWeekStart year week, isoWeekStart year week + 7 * day,
      fun parentTable stem h => parse_weeklyName hy₀ hy₁ hw₀ (by omega) h, ?_,
      weekday_isoWeekStart year week, rfl, fun year' => ?_, fun hlt => ?_, fun hlast => ?_⟩
    · rw [isoWeekStart_eq]
      exact Int.dvd_mul_left ..
    · rw [← mem_week_iff hw₀ hw₁, isoWeekStart_eq, ← add_mul, mem_days_iff,
        Int.mul_ediv_cancel _ (by decide)]
    · rw [← isoWeekStart_succ]
      exact startsAt_week hy₀ hy₁ (by omega) (by omega)
    · rw [hlast, ← isoWeekStart_succ_year]
      exact ⟨rfl, fun hy => startsAt_week (by omega) (by omega) le_rfl (by decide)⟩
  · refine ⟨firstOfMonth (12 * year + (month - 1)) * day,
      firstOfMonth (12 * year + (month - 1) + 1) * day,
      fun parentTable stem h => parse_monthlyName hy₀ hy₁ hm₀ hm₁ h, ?_, fun t => ?_,
      fun hlt => ?_, fun hlast => ?_⟩
    · rw [firstOfMonth_date hm₀ hm₁]
    · rw [← mem_month_date hm₀ hm₁, firstOfMonth_date hm₀ hm₁, mem_days_iff]
    · have hindex : 12 * year + (month - 1) + 1 = 12 * year + (month + 1 - 1) := by omega
      rw [hindex]
      exact startsAt_month hy₀ hy₁ (by omega) (by omega)
    · have hindex : 12 * year + (month - 1) + 1 = 12 * (year + 1) + (1 - 1) := by omega
      rw [hindex]
      refine ⟨by rw [firstOfMonth_date le_rfl (by decide)], fun hy => ?_⟩
      exact startsAt_month (by omega) (by omega) le_rfl (by decide)

/-- 2026 starts on a Thursday: its week 53 goes on to January 3, and the next one has
    January 4 of 2027. -/
theorem partitions_tile_2026 : isoWeeks 2026 = 53 ∧
    OfParent "liquidation_events" "liquidation_events_2026_w53" ∧
    OfParent "liquidation_events" "liquidation_events_2027_w01" ∧
    ∃ start stop stop',
      parsePartitionRange "liquidation_events" "liquidation_events_2026_w53" = some (start, stop) ∧
      parsePartitionRange "liquidation_events" "liquidation_events_2027_w01" = some (stop, stop') ∧
      stop = dayOfDate ⟨2027, 1, 4⟩ * day := by
  have hweeks : isoWeeks 2026 = 53 := by decide
  have hold : OfParent "liquidation_events" "liquidation_events_2026_w53" := .inr (by decide)
  have hnew : OfParent "liquidation_events" "liquidation_events_2027_w01" := .inr (by decide)
  obtain ⟨hweekly, -⟩ := partitions_tile 2026 (by decide) (by decide)
  obtain ⟨start, stop, hparse, -, -, -, -, -, hlast⟩ :=
    hweekly 53 (by decide) (le_of_eq hweeks.symm)
  obtain ⟨hstop, hnext⟩ := hlast hweeks.symm
  obtain ⟨stop', hparse'⟩ := hnext (by decide) "liquidation_events" "liquidation_events" hnew
  exact ⟨hweeks, hold, hnew, start, stop, stop', hparse _ "liquidation_events" hold, hparse',
    hstop.trans (by decide)⟩

end Aggregator.Retention
