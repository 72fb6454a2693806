/-
  Buckets whose tokens are rational numbers.

  * `Bucket.Wf`: the invariant of the buckets of a limiter, kept by every call;
  * `Bucket.refill_tokens`: a refill tops up both counts;
  * `short_topUp`: refilling for some nanoseconds shortens the time until the tokens
    are there by as many.
-/
import Aggregator.Ratelimit.Limiter
import Mathlib.Tactic.FieldSimp
import Mathlib.Tactic.Positivity
import Mathlib.Algebra.Order.Floor.Ring

namespace Aggregator.Ratelimit

open Aggregator.Go

/-! ## Buckets -/

/-- The invariant of the buckets of a limiter. -/
structure Bucket.Wf (b : Bucket) : Prop where
  rps : 0 < b.budget.requestsPerSecond
  rpm : 0 < b.budget.requestsPerMinute
  burst : 1 ≤ b.budget.burst
  secondTokens : 0 ≤ b.secondTokens
  minuteTokens : 0 ≤ b.minuteTokens
  jitterMin : int64Min ≤ b.budget.jitterMin
  jitter : b.budget.jitterMin ≤ b.budget.jitterMax
  jitterMax : b.budget.jitterMax ≤ int64Max

namespace Bucket
variable {b : Bucket} {now weight : ℤ}

@[simp] theorem raise_secondTokens : (b.raise weight).secondTokens = b.secondTokens := by
  unfold raise; split <;> rfl

@[simp] theorem raise_minuteTokens : (b.raise weight).minuteTokens = b.minuteTokens := by
  unfold raise; split <;> rfl

@[simp] theorem raise_rps :
    (b.raise weight).budget.requestsPerSecond = b.budget.requestsPerSecond := by
  unfold raise; split <;> rfl

@[simp] theorem raise_rpm :
    (b.raise weight).budget.requestsPerMinute = b.budget.requestsPerMinute := by
  unfold raise; split <;> rfl

@[simp] theorem raise_jitterMin : (b.raise weight).budget.jitterMin = b.budget.jitterMin := by
  unfold raise; split <;> rfl

@[simp] theorem raise_jitterMax : (b.raise weight).budget.jitterMax = b.budget.jitterMax := by
  unfold raise; split <;> rfl

theorem raise_burst : (b.raise weight).budget.burst = max b.budget.burst weight := by
  unfold raise; split <;> simp <;> omega

/-- A bucket whose burst covers `weight` is not raised. -/
theorem raise_of_le (h : weight ≤ b.budget.burst) : b.raise weight = b := by
  unfold raise; rw [if_neg (by omega)]

@[simp] theorem refill_budget : (b.refill now).budget = b.budget := by
  unfold refill; split
  · rfl
  · dsimp only; split <;> rfl

theorem seconds_pos {d : ℤ} : 0 < seconds d ↔ 0 < d := by
  unfold seconds
  rw [div_pos_iff_of_pos_right (by norm_num)]
  exact_mod_cast Iff.rfl

theorem timeSub_le_zero {t u : ℤ} : timeSub t u ≤ 0 ↔ t ≤ u := by
  unfold timeSub int64Min int64Max; omega

/-- A refill leaves the clock at `now`. -/
theorem refill_lastRefill : (b.refill now).lastRefill = now := by
  unfold refill
  split
  · rfl
  · dsimp only
    split
    · rename_i h₁ h₂
      have := timeSub_le_zero.1 (not_lt.1 (mt seconds_pos.2 (not_lt.2 h₂)))
      omega
    · rfl

/-- A count of `tokens` after `elapsed` nanoseconds of refilling. -/
def topUp (cap tokens rate : ℚ) (elapsed : ℤ) : ℚ :=
  if elapsed ≤ 0 then tokens else min cap (tokens + seconds elapsed * rate)

/-- A refill that does not go back in time tops up both counts. -/
theorem refill_tokens {now : ℤ} (h : b.lastRefill ≤ now) :
    (b.refill now).secondTokens = topUp b.budget.burst b.secondTokens
        b.budget.requestsPerSecond (timeSub now b.lastRefill) ∧
      (b.refill now).minuteTokens = topUp (max b.budget.requestsPerMinute b.budget.burst)
        b.minuteTokens (b.budget.requestsPerMinute / 60) (timeSub now b.lastRefill) := by
  have he : seconds (timeSub now b.lastRefill) ≤ 0 ↔ timeSub now b.lastRefill ≤ 0 := by
    rw [← not_lt, ← not_lt, seconds_pos]
  unfold refill topUp
  rw [if_neg (by omega)]
  simp only [he]
  split <;> exact ⟨rfl, rfl⟩

end Bucket

theorem Bucket.Wf.raise {b : Bucket} (h : b.Wf) (weight : ℤ) : (b.raise weight).Wf where
  rps := by simpa using h.rps
  rpm := by simpa using h.rpm
  burst := by have := h.burst; rw [Bucket.raise_burst]; omega
  secondTokens := by simpa using h.secondTokens
  minuteTokens := by simpa using h.minuteTokens
  jitterMin := by simpa using h.jitterMin
  jitter := by simpa using h.jitter
  jitterMax := by simpa using h.jitterMax

theorem Bucket.Wf.refill {b : Bucket} (h : b.Wf) (now : ℤ) : (b.refill now).Wf := by
  have hb : (0 : ℚ) ≤ b.budget.burst := by exact_mod_cast (by have := h.burst; omega)
  unfold Bucket.refill
  split
  · exact ⟨h.rps, h.rpm, h.burst, h.secondTokens, h.minuteTokens, h.jitterMin, h.jitter,
      h.jitterMax⟩
  · dsimp only
    split
    · exact h
    · rename_i h₀
      have hs := h.secondTokens; have hm := h.minuteTokens; have hr := h.rps; have hr' := h.rpm
      have he := (not_le.1 h₀).le
      exact ⟨h.rps, h.rpm, h.burst, le_min hb (by positivity),
        le_min (le_max_of_le_right hb) (by positivity), h.jitterMin, h.jitter, h.jitterMax⟩

theorem Bucket.Wf.reserve {b : Bucket} (h : b.Wf) (now weight : ℤ) :
    (b.reserve now weight).2.Wf := by
  have h' := (h.raise weight).refill now
  unfold Bucket.reserve
  dsimp only
  split
  · rename_i hh
    simp only [Bucket.has, Bool.and_eq_true, decide_eq_true_eq] at hh
    exact ⟨h'.rps, h'.rpm, h'.burst, sub_nonneg.2 hh.1, sub_nonneg.2 hh.2, h'.jitterMin,
      h'.jitter, h'.jitterMax⟩
  · exact h'

/-! ## Shortages -/

/-- The nanoseconds until a count of `tokens` refilled at `rate` holds
    `weight`. -/
def short (weight : ℤ) (tokens rate : ℚ) : ℚ := (weight - tokens) / rate * second

theorem short_le {weight : ℤ} {tokens rate c : ℚ} (hr : 0 < rate) :
    short weight tokens rate ≤ c ↔ weight ≤ tokens + c / second * rate := by
  have hs : (0 : ℚ) < second := by norm_num [second]
  unfold short
  rw [← le_div_iff₀ hs, div_le_iff₀ hr]
  constructor <;> intro h <;> linarith

theorem seconds_eq (d : ℤ) : seconds d = d / second := by norm_num [seconds, second]

/-- Topping up a count for `e` nanoseconds shortens its shortage by `e`, up to
    the cap, which is not felt as long as there is a shortage. -/
theorem short_topUp {weight e : ℤ} {cap tokens rate c : ℚ} (hr : 0 < rate) (hcap : weight ≤ cap)
    (he : 0 ≤ e) (hc : 0 ≤ c) :
    short weight (Bucket.topUp cap tokens rate e) rate ≤ c ↔ short weight tokens rate ≤ c + e := by
  have hs : (0 : ℚ) < second := by norm_num [second]
  rw [short_le hr, short_le hr, add_div, add_mul, ← seconds_eq e, Bucket.topUp]
  have hcr : 0 ≤ c / second * rate := by positivity
  split
  · obtain rfl : e = 0 := by omega
    simp [seconds]
  · rw [min_add, le_min_iff]
    constructor
    · rintro ⟨-, h⟩; linarith
    · intro h; exact ⟨by linarith, by linarith⟩

namespace Limiter

@[simp] theorem set_buckets_self (l : Limiter) (e : String) (b : Bucket) :
    (l.set e b).buckets e = some b := by simp [set]

theorem newBucket_wf {g : Budget} {now : ℤ} (h₁ : 0 < g.requestsPerSecond)
    (h₂ : 0 < g.requestsPerMinute) (h₃ : 1 ≤ g.burst) (h₄ : int64Min ≤ g.jitterMin)
    (h₅ : g.jitterMin ≤ g.jitterMax) (h₆ : g.jitterMax ≤ int64Max) : (newBucket g now).Wf := by
  have hb : (0 : ℚ) ≤ g.burst := by exact_mod_cast (by omega)
  exact ⟨h₁, h₂, h₃, hb, le_max_of_le_right hb, h₄, h₅, h₆⟩

end Limiter

end Aggregator.Ratelimit
