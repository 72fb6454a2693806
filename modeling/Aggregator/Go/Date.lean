/-
  Calendar dates (UTC, proleptic Gregorian) of instants, and `time.RFC3339`.

  Days are counted from January 1 of year 1, the day of the zero time.  The
  computation shifts the start of the year to March 1, so that the leap day is
  the last day of a year, and works in cycles of 400 years.

  `formatRFC3339_inj`: no two instants that are whole seconds have the same text.
-/
import Aggregator.Go.Time
import Mathlib.Data.Nat.Digits.Defs
import Mathlib.Tactic.IntervalCases

namespace Aggregator.Go

@[ext]
structure Date where
  year : ℤ
  month : ℤ
  day : ℤ
deriving DecidableEq, Repr

/-- The date of a day. -/
def dateOfDay (days : ℤ) : Date :=
  let z := days + 306
  let era := z / 146097
  let doe := z % 146097
  let yoe := (doe - doe / 1460 + doe / 36524 - doe / 146096) / 365
  let doy := doe - (365 * yoe + yoe / 4 - yoe / 100)
  let mp := (5 * doy + 2) / 153
  let month := if mp < 10 then mp + 3 else mp - 9
  { year := yoe + era * 400 + (if month ≤ 2 then 1 else 0)
    month := month
    day := doy - (153 * mp + 2) / 5 + 1 }

/-- The day of a date. -/
def dayOfDate (d : Date) : ℤ :=
  let y := if d.month ≤ 2 then d.year - 1 else d.year
  let era := y / 400
  let yoe := y % 400
  let mp := if d.month > 2 then d.month - 3 else d.month + 9
  let doy := (153 * mp + 2) / 5 + d.day - 1
  era * 146097 + yoe * 365 + yoe / 4 - yoe / 100 + doy - 306

/-- A number written with at least `width` digits, after its sign if it is
    negative. -/
def padLeft (width : ℕ) (n : ℤ) : String :=
  let digits := toString n.natAbs
  (if n < 0 then "-" else "") ++
    String.ofList (List.replicate (width - digits.length) '0') ++ digits

/-- `t.UTC().Format(time.RFC3339)`. -/
def formatRFC3339 (t : ℤ) : String :=
  let d := dateOfDay (t / day)
  let s := t % day / second
  padLeft 4 d.year ++ "-" ++ padLeft 2 d.month ++ "-" ++ padLeft 2 d.day ++ "T" ++
    padLeft 2 (s / 3600) ++ ":" ++ padLeft 2 (s / 60 % 60) ++ ":" ++ padLeft 2 (s % 60) ++ "Z"

/-! ## Reading a text back -/

/-- The digits of a text with zeros before it. -/
theorem toList_padLeft (width : ℕ) (n : ℤ) : ∃ zeros, (padLeft width n).toList =
    (if n < 0 then ['-'] else []) ++
      (List.replicate zeros '0' ++ Nat.toDigits 10 n.natAbs) := by
  refine ⟨width - (toString n.natAbs).length, ?_⟩
  unfold padLeft
  split_ifs <;> simp [Nat.toString_eq_repr]

theorem ofDigitChars_replicate (zeros : ℕ) (digits : List Char) :
    Nat.ofDigitChars 10 (List.replicate zeros '0' ++ digits) 0 = Nat.ofDigitChars 10 digits 0 := by
  induction zeros with
  | zero => rfl
  | succ zeros ih =>
    rw [List.replicate_succ, List.cons_append, Nat.ofDigitChars_cons]
    exact ih

theorem minus_notMem_digits (zeros n : ℕ) :
    '-' ∉ List.replicate zeros '0' ++ Nat.toDigits 10 n := by
  intro h
  rcases List.mem_append.1 h with h | h
  · exact absurd (List.eq_of_mem_replicate h) (by decide)
  · exact absurd (Nat.isDigit_of_mem_toDigits (by decide) (by decide) h) (by decide)

/-- A text is that of one number only. -/
theorem padLeft_inj {width : ℕ} {m n : ℤ} (h : padLeft width m = padLeft width n) : m = n := by
  obtain ⟨zm, hm⟩ := toList_padLeft width m
  obtain ⟨zn, hn⟩ := toList_padLeft width n
  rw [h, hn] at hm
  have hvalue : ∀ {k l : ℕ}, List.replicate zn '0' ++ Nat.toDigits 10 k =
      List.replicate zm '0' ++ Nat.toDigits 10 l → k = l := by
    intro k l hkl
    have hread := congrArg (fun digits => Nat.ofDigitChars 10 digits 0) hkl
    simpa only [ofDigitChars_replicate, Nat.ofDigitChars_toDigits (by decide : 1 < 10) le_rfl]
      using hread
  split_ifs at hm with hneg hneg' hneg'
  · have := hvalue (List.append_cancel_left hm)
    omega
  · -- only one of the two texts has a sign
    exact absurd (hm ▸ List.mem_append_left _ (List.mem_singleton_self '-'))
      (minus_notMem_digits zm m.natAbs)
  · exact absurd (hm ▸ List.mem_append_left _ (List.mem_singleton_self '-'))
      (minus_notMem_digits zn n.natAbs)
  · have := hvalue hm
    omega

/-- A number with at most as many digits as the field is wide. -/
theorem length_padLeft {width : ℕ} (hwidth : 0 < width) {n : ℤ} (h₀ : 0 ≤ n)
    (h₁ : n < 10 ^ width) : (padLeft width n).toList.length = width := by
  have hdigits : (toString n.natAbs).length ≤ width := by
    refine Nat.repr_length n.natAbs width hwidth ?_
    zify
    rwa [abs_of_nonneg h₀]
  simp only [padLeft, if_neg (not_lt.2 h₀), String.toList_append, String.toList_ofList,
    List.length_append, List.length_replicate, String.length_toList, String.toList_empty,
    List.length_nil]
  omega

/-- The numbers of two digits. -/
theorem length_padLeft_two {n : ℤ} (h₀ : 0 ≤ n) (h₁ : n < 100) :
    (padLeft 2 n).toList.length = 2 :=
  length_padLeft (by decide) h₀ h₁

/-- A field of two digits at the end of a text. -/
theorem append_padLeft_inj {a b sep : String} {m n : ℤ} (hm : 0 ≤ m ∧ m < 100)
    (hn : 0 ≤ n ∧ n < 100) (h : a ++ sep ++ padLeft 2 m = b ++ sep ++ padLeft 2 n) :
    a = b ∧ m = n := by
  have hlist := congrArg String.toList h
  simp only [String.toList_append, List.append_assoc] at hlist
  have hlen : (sep.toList ++ (padLeft 2 m).toList).length =
      (sep.toList ++ (padLeft 2 n).toList).length := by
    rw [List.length_append, List.length_append, length_padLeft_two hm.1 hm.2,
      length_padLeft_two hn.1 hn.2]
  obtain ⟨hab, hfield⟩ := List.append_inj' hlist hlen
  exact ⟨String.toList_inj.1 hab,
    padLeft_inj (String.toList_inj.1 (List.append_cancel_left hfield))⟩

theorem dateOfDay_month (days : ℤ) : 1 ≤ (dateOfDay days).month ∧ (dateOfDay days).month ≤ 12 := by
  simp only [dateOfDay]
  split_ifs <;> omega

theorem dateOfDay_day (days : ℤ) : 1 ≤ (dateOfDay days).day ∧ (dateOfDay days).day ≤ 31 := by
  simp only [dateOfDay]
  omega

/-- The day lies in the year that is computed for it. -/
theorem dayOfYear_bounds {doe yoe : ℤ} (h₀ : 0 ≤ doe) (h₁ : doe < 146097)
    (hy : (doe - doe / 1460 + doe / 36524 - doe / 146096) / 365 = yoe) :
    365 * yoe + yoe / 4 - yoe / 100 ≤ doe ∧ doe ≤ 365 * yoe + yoe / 4 - yoe / 100 + 365 := by
  have hcentury₀ : 0 ≤ yoe / 100 := by omega
  have hcentury₁ : yoe / 100 ≤ 3 := by omega
  -- the four centuries of an era differ in the leap days before them
  generalize hcentury : yoe / 100 = century at *
  interval_cases century <;> omega

/-- The day of a date in terms of the year that starts in March. -/
theorem dayOfDate_march {era yoe mp d : ℤ} (hy₀ : 0 ≤ yoe) (hy₁ : yoe < 400) (hm₀ : 0 ≤ mp)
    (hm₁ : mp < 12) (month : ℤ) (hmonth : month = if mp < 10 then mp + 3 else mp - 9) :
    dayOfDate ⟨yoe + era * 400 + (if month ≤ 2 then 1 else 0), month, d⟩ =
      era * 146097 + yoe * 365 + yoe / 4 - yoe / 100 + ((153 * mp + 2) / 5 + d - 1) - 306 := by
  have hera : (yoe + era * 400) / 400 = era := by omega
  have hyoe : (yoe + era * 400) % 400 = yoe := by omega
  have hmp : (if 2 < month then month - 3 else month + 9) = mp := by
    split_ifs at * <;> omega
  have hyear : (if month ≤ 2 then yoe + era * 400 + (if month ≤ 2 then 1 else 0) - 1
      else yoe + era * 400 + (if month ≤ 2 then 1 else 0)) = yoe + era * 400 := by
    split_ifs <;> omega
  simp only [dayOfDate, gt_iff_lt, hmp, hyear, hera, hyoe]

theorem dayOfDate_dateOfDay (days : ℤ) : dayOfDate (dateOfDay days) = days := by
  have h₀ := Int.emod_nonneg (days + 306) (by decide : (146097 : ℤ) ≠ 0)
  have h₁ := Int.emod_lt_of_pos (days + 306) (by decide : (0 : ℤ) < 146097)
  obtain ⟨hfirst, hlast⟩ := dayOfYear_bounds h₀ h₁ rfl
  rw [dateOfDay, dayOfDate_march (by omega) (by omega) (by omega) (by omega) _ rfl]
  omega

theorem dateOfDay_inj {d e : ℤ} (h : dateOfDay d = dateOfDay e) : d = e := by
  rw [← dayOfDate_dateOfDay d, h, dayOfDate_dateOfDay]

/-- **A text denotes one instant**: instants that are whole seconds have
    different texts. -/
theorem formatRFC3339_inj {t u : ℤ} (ht : second ∣ t) (hu : second ∣ u)
    (h : formatRFC3339 t = formatRFC3339 u) : t = u := by
  have hsec : ∀ s : ℤ, 0 ≤ s % 60 ∧ s % 60 < 100 := by omega
  have hhour : ∀ t : ℤ, 0 ≤ t % day / second / 3600 ∧ t % day / second / 3600 < 100 := by
    unfold day hour minute second
    omega
  have hday : ∀ d : ℤ, 0 ≤ (dateOfDay d).day ∧ (dateOfDay d).day < 100 := by
    intro d
    have := dateOfDay_day d
    omega
  have hmonth : ∀ d : ℤ, 0 ≤ (dateOfDay d).month ∧ (dateOfDay d).month < 100 := by
    intro d
    have := dateOfDay_month d
    omega
  unfold formatRFC3339 at h
  -- the fields from the last to the first; all but the year have two digits
  obtain ⟨h, hs⟩ := append_padLeft_inj (hsec _) (hsec _) ((String.append_left_inj _).1 h)
  obtain ⟨h, hm⟩ := append_padLeft_inj (hsec _) (hsec _) h
  obtain ⟨h, hh⟩ := append_padLeft_inj (hhour t) (hhour u) h
  obtain ⟨h, hd⟩ := append_padLeft_inj (hday _) (hday _) h
  obtain ⟨h, hmo⟩ := append_padLeft_inj (hmonth _) (hmonth _) h
  have hdate : dateOfDay (t / day) = dateOfDay (u / day) :=
    Date.ext (padLeft_inj h) hmo hd
  have hdays := dateOfDay_inj hdate
  unfold day hour minute second at *
  omega

end Aggregator.Go
