/-
  Go's `time` and the 64-bit integers below it, as far as the services use
  them.

  An instant is its distance, in nanoseconds, from the zero time (January 1,
  year 1, 00:00 UTC), and a duration a number of nanoseconds; `isZero` is
  therefore `t = 0`.  `sub` saturates as `Time.Sub` does, `wrap64` is the
  result of an `int64` operation, and `float64ToInt64` the conversion
  `int64(f)`: it drops the fraction, and a value that does not fit becomes the
  smallest `int64`, as on amd64, the architecture the services are built for.
  A `float64` is modelled by a rational number.
-/
import Mathlib.Data.Rat.Floor
import Mathlib.Tactic.Linarith

namespace Aggregator.Go

def int64Min : ℤ := -9223372036854775808
def int64Max : ℤ := 9223372036854775807

def second : ℤ := 1000000000
def minute : ℤ := 60 * second
def hour : ℤ := 60 * minute
def day : ℤ := 24 * hour

/-- The value of an `int64` expression whose mathematical value is `x`. -/
def wrap64 (x : ℤ) : ℤ := (x - int64Min) % 18446744073709551616 + int64Min

/-- `int64(f)`. -/
def float64ToInt64 (q : ℚ) : ℤ :=
  let n := if 0 ≤ q then ⌊q⌋ else ⌈q⌉
  if int64Min ≤ n ∧ n ≤ int64Max then n else int64Min

/-- Shortcut to the order of instants and durations, by which the first or the
    last of some rows is computed. -/
instance (priority := high) timeOrder : Preorder ℤ := Int.instLinearOrder.toPreorder

/-- `t.IsZero()`. -/
def isZero (t : ℤ) : Bool := t = 0

/-- `t.Sub(u)`: the difference, saturated at the ends of `int64`. -/
def timeSub (t u : ℤ) : ℤ := max int64Min (min int64Max (t - u))

/-- `t.Truncate(d)`: `t` rounded down to a multiple of `d` since the zero
    time. -/
def truncate (t d : ℤ) : ℤ := if d ≤ 0 then t else t - t % d

/-- `t.Add(d)`; the seconds since the zero time, an `int64`, saturate. -/
def timeAdd (t d : ℤ) : ℤ :=
  let s := (t + d) / second
  let s := if int64Max < s then int64Max else if s < int64Min then -int64Max else s
  s * second + (t + d) % second

/-- The seconds from the zero time to January 1, 1970. -/
def unixToInternal : ℤ := 62135596800

/-- `time.Unix(sec, 0)`. -/
def unixSeconds (sec : ℤ) : ℤ := wrap64 (sec + unixToInternal) * second

/-- `time.UnixMilli(msec)`. -/
def unixMilli (msec : ℤ) : ℤ := (unixToInternal * 1000 + msec) * 1000000

/-- `d.Seconds()`. -/
def seconds (d : ℤ) : ℚ := d / 1000000000

theorem wrap64_of_mem {x : ℤ} (h₁ : int64Min ≤ x) (h₂ : x ≤ int64Max) : wrap64 x = x := by
  unfold wrap64 int64Min int64Max at *; omega

/-- A whole number is converted to itself, if it fits. -/
theorem float64ToInt64_intCast {n : ℤ} (h : 0 ≤ n) :
    float64ToInt64 n = if n ≤ int64Max then n else int64Min := by
  have hq : (0 : ℚ) ≤ n := by exact_mod_cast h
  have hmin : int64Min ≤ n := h.trans' (by decide)
  simp only [float64ToInt64, hq, ↓reduceIte, Int.floor_intCast, hmin, true_and]

theorem timeSub_of_mem {t u : ℤ} (h₁ : u ≤ t) (h₂ : t - u ≤ int64Max) : timeSub t u = t - u := by
  unfold timeSub int64Min int64Max at *; omega

theorem timeSub_nonneg {t u : ℤ} (h : u ≤ t) : 0 ≤ timeSub t u := by
  unfold timeSub int64Min int64Max at *; omega

end Aggregator.Go
