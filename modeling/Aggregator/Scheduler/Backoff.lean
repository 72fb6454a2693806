/-
  The delay before a job is tried again (`internal/scheduler/worker.go`: `backoff`,
  `deterministicJitter`).

  The delay doubles with each retry, up to ten times and up to `Max`, and some jitter is
  added.  The product is computed as a `float64` and converted to an `int64`.  One that
  does not fit becomes the smallest `int64`, which the comparison with `Max` lets pass.

  * `RetryPolicy.delay_of_fits`, `delay_of_not_fits`: the delay without the jitter;
  * `RetryPolicy.delay_mono_iff`: when it does not decrease with the retries;
  * `Worker.process_retries`: the time of the next attempt in the database;
  * `Worker.backoff_bounds_iff`: when the delay lies between its bounds.
-/
import Aggregator.Scheduler.Worker

namespace Aggregator.Scheduler

open Aggregator.Go

/-! ## Without jitter -/

namespace RetryPolicy

/-- A policy that is accepted, if its largest delay is an `int64`. -/
structure Valid (p : RetryPolicy) : Prop where
  base_pos : 0 < p.base
  base_le : p.base ≤ int64Max
  max_pos : 0 < p.max
  jitterMax_nonneg : 0 ≤ p.jitterMax
  sum_le : p.max + p.jitterMax ≤ int64Max

theorem Valid.min_pos {p : RetryPolicy} (hp : p.Valid) : 0 < min p.base p.max :=
  lt_min hp.base_pos hp.max_pos

/-- How often the delay has doubled; `RetryCount + 1` wraps around. -/
def exponent (retryCount : ℤ) : ℕ :=
  let attempt := wrap64 (retryCount + 1)
  let attempt := if attempt < 1 then 1 else attempt
  (min (attempt - 1) 10).toNat

/-- `backoff` without the jitter. -/
def delay (p : RetryPolicy) (retryCount : ℤ) : ℤ :=
  let delay := float64ToInt64 (p.base * 2 ^ exponent retryCount)
  if delay > p.max then p.max else delay

/-- The product is an `int64`. -/
def Fits (p : RetryPolicy) (retryCount : ℤ) : Prop :=
  p.base * 2 ^ exponent retryCount ≤ int64Max

theorem exponent_le (n : ℤ) : exponent n ≤ 10 := by
  unfold exponent
  dsimp only
  omega

theorem exponent_of_lt {n : ℤ} (h₀ : int64Min ≤ n) (h₁ : n < int64Max) :
    exponent n = (min n 10).toNat := by
  have hattempt : wrap64 (n + 1) = n + 1 := wrap64_of_mem (by omega) (by omega)
  simp only [exponent, hattempt]
  split <;> omega

theorem exponent_int64Max : exponent int64Max = 0 := by decide

theorem exponent_mono {m n : ℤ} (h₀ : int64Min ≤ m) (hmn : m ≤ n) (h₁ : n < int64Max) :
    exponent m ≤ exponent n := by
  rw [exponent_of_lt h₀ (by omega), exponent_of_lt (by omega) h₁]
  omega

section
variable {p : RetryPolicy} (hp : p.Valid) {m n : ℤ}
include hp

theorem le_product (n : ℤ) : p.base ≤ p.base * 2 ^ exponent n :=
  le_mul_of_one_le_right hp.base_pos.le (one_le_pow₀ (by decide))

theorem product_le {e : ℕ} (h : exponent n ≤ e) : p.base * 2 ^ exponent n ≤ p.base * 2 ^ e :=
  mul_le_mul_of_nonneg_left (pow_le_pow_right₀ (by decide) h) hp.base_pos.le

theorem delay_eq (n : ℤ) : p.delay n =
    if p.base * 2 ^ exponent n ≤ int64Max then min (p.base * 2 ^ exponent n) p.max else int64Min := by
  have hcast : (p.base : ℚ) * 2 ^ exponent n = ((p.base * 2 ^ exponent n : ℤ) : ℚ) := by
    push_cast
    rfl
  have hpos : 0 ≤ p.base * 2 ^ exponent n := hp.base_pos.le.trans (le_product hp n)
  have hmax := hp.max_pos
  simp only [delay, hcast, float64ToInt64_intCast hpos]
  generalize p.base * 2 ^ exponent n = product
  split
  · split <;> omega
  · exact if_neg (by unfold int64Min; omega)

theorem delay_of_fits (h : p.Fits n) : p.delay n = min (p.base * 2 ^ exponent n) p.max :=
  (delay_eq hp n).trans (if_pos h)

theorem delay_of_not_fits (h : ¬p.Fits n) : p.delay n = int64Min :=
  (delay_eq hp n).trans (if_neg h)

theorem fits_of_exponent_eq_zero (h : exponent n = 0) : p.Fits n := by
  rw [Fits, h, pow_zero, mul_one]
  exact hp.base_le

theorem delay_of_exponent_eq_zero (h : exponent n = 0) : p.delay n = min p.base p.max := by
  rw [delay_of_fits hp (fits_of_exponent_eq_zero hp h), h, pow_zero, mul_one]

theorem fits_of_le (h : p.base * 2 ^ 10 ≤ int64Max) (n : ℤ) : p.Fits n :=
  (product_le hp (exponent_le n)).trans h

/-- **The delay does not decrease** with the retries exactly if no product overflows. -/
theorem delay_mono_iff :
    (∀ m n, int64Min ≤ m → m ≤ n → n < int64Max → p.delay m ≤ p.delay n) ↔
      p.base * 2 ^ 10 ≤ int64Max := by
  constructor
  · intro h
    by_contra hnot
    have hten : ¬p.Fits 10 := hnot
    have hdelay := h 0 10 (by decide) (by decide) (by decide)
    rw [delay_of_exponent_eq_zero hp rfl, delay_of_not_fits hp hten] at hdelay
    exact absurd hdelay (not_le.2 (hp.min_pos.trans' (by decide)))
  · intro h m n h₀ hmn h₁
    rw [delay_of_fits hp (fits_of_le hp h m), delay_of_fits hp (fits_of_le hp h n)]
    exact min_le_min_right _ (product_le hp (exponent_mono h₀ hmn h₁))

/-- With the largest number of retries, after which the delay starts anew, this is so only
    if all delays are the same. -/
theorem delay_mono_all_iff :
    (∀ m n, int64Min ≤ m → m ≤ n → n ≤ int64Max → p.delay m ≤ p.delay n) ↔
      p.base * 2 ^ 10 ≤ int64Max ∧ p.max ≤ p.base := by
  have hlast : p.delay int64Max = min p.base p.max :=
    delay_of_exponent_eq_zero hp exponent_int64Max
  constructor
  · intro h
    have hfits := (delay_mono_iff hp).1 fun m n h₀ hmn h₁ => h m n h₀ hmn h₁.le
    refine ⟨hfits, ?_⟩
    have hten : exponent 10 = 10 := rfl
    have hdelay := h 10 int64Max (by decide) (by decide) le_rfl
    rw [hlast, delay_of_fits hp (fits_of_le hp hfits 10), hten] at hdelay
    have hpos := hp.base_pos
    omega
  · rintro ⟨hfits, hmax⟩ m n h₀ hmn h₁
    rcases h₁.lt_or_eq with h₁ | rfl
    · exact (delay_mono_iff hp).2 hfits m n h₀ hmn h₁
    · rw [hlast, min_eq_right hmax, delay_of_fits hp (fits_of_le hp hfits m)]
      exact min_le_right _ _

end

end RetryPolicy

/-! ## With jitter -/

theorem deterministicJitter_mem (job : Job) {max : ℤ} (h : 0 ≤ max) :
    0 ≤ deterministicJitter job max ∧ deterministicJitter job max ≤ max := by
  unfold deterministicJitter
  split
  · exact ⟨le_rfl, h⟩
  · exact ⟨Int.emod_nonneg _ (by omega), (Int.emod_lt_of_pos _ (by omega)).le⟩

namespace Worker
variable {w : Worker} (hw : w.backoffFunc = none) (hp : w.retry.Valid)
include hw hp

theorem backoff_eq (job : Job) : w.backoff job =
    wrap64 (w.retry.delay job.retryCount + deterministicJitter job w.retry.jitterMax) := by
  have hbase : ¬w.retry.base ≤ 0 := not_le.2 hp.base_pos
  have hmax : ¬w.retry.max ≤ 0 := not_le.2 hp.max_pos
  have hjitter : ¬w.retry.jitterMax < 0 := not_lt.2 hp.jitterMax_nonneg
  simp only [backoff, hw, hbase, hmax, hjitter, ↓reduceIte]
  rfl

theorem backoff_of_fits {job : Job} (h : w.retry.Fits job.retryCount) :
    min w.retry.base w.retry.max ≤ w.backoff job ∧
      w.backoff job ≤ w.retry.max + w.retry.jitterMax := by
  have hjitter := deterministicJitter_mem job hp.jitterMax_nonneg
  have hbase := RetryPolicy.le_product hp job.retryCount
  have hsum := hp.sum_le
  have hpos := hp.min_pos
  rw [backoff_eq hw hp, RetryPolicy.delay_of_fits hp h, wrap64_of_mem]
  · omega
  · unfold int64Min
    omega
  · omega

theorem backoff_of_not_fits {job : Job} (h : ¬w.retry.Fits job.retryCount) :
    w.backoff job = int64Min + deterministicJitter job w.retry.jitterMax ∧ w.backoff job < 0 := by
  have hjitter := deterministicJitter_mem job hp.jitterMax_nonneg
  have hsum := hp.sum_le
  have hmax := hp.max_pos
  have hvalue : w.backoff job = int64Min + deterministicJitter job w.retry.jitterMax := by
    rw [backoff_eq hw hp, RetryPolicy.delay_of_not_fits hp h, wrap64_of_mem (by omega)]
    unfold int64Min int64Max at *
    omega
  refine ⟨hvalue, ?_⟩
  rw [hvalue]
  unfold int64Min int64Max at *
  omega

theorem backoff_nonneg_iff (job : Job) : 0 ≤ w.backoff job ↔ w.retry.Fits job.retryCount := by
  constructor
  · intro h
    by_contra hnot
    exact absurd h (not_le.2 (backoff_of_not_fits hw hp hnot).2)
  · intro h
    exact hp.min_pos.le.trans (backoff_of_fits hw hp h).1

theorem backoff_mem_iff (job : Job) :
    (min w.retry.base w.retry.max ≤ w.backoff job ∧
      w.backoff job ≤ w.retry.max + w.retry.jitterMax) ↔ w.retry.Fits job.retryCount := by
  constructor
  · rintro ⟨hle, -⟩
    exact (backoff_nonneg_iff hw hp job).1 (hp.min_pos.le.trans hle)
  · exact backoff_of_fits hw hp

omit hw hp in
/-- The row of a job that is tried again. -/
theorem process_retries (w : Worker) {a : Attempt} {job r : Job} {s : State}
    (hstore : a.storeErr = none) (hrow : s.db.jobs.find job.id = some r)
    (hretries : DB.Retries job (w.attempt a job s.breaker).1) :
    ∃ message, (w.process a job s).2.db.jobs.find job.id =
      some (r.retry (a.clock + w.backoff job) message a.now) := by
  rw [(process_of_ok w job s hstore).2.1]
  obtain ⟨r', hr', hsettles⟩ := DB.settle_cases (a.clock + w.backoff job) a.now
    (w.attempt a job s.breaker).1 hrow
  obtain ⟨hfailed, hfatal, hcount⟩ := hretries
  rcases hsettles with ⟨hok, -⟩ | ⟨-, hdead, -⟩ | ⟨-, message, rfl⟩
  · rw [hok] at hfailed
    cases hfailed
  · exact absurd hdead (not_or.2 ⟨hfatal, not_le.2 hcount⟩)
  · exact ⟨message, hr'⟩

/-- **The delay before a retry** lies between its bounds exactly if the product fits, and
    only then the job is not scheduled in the past.  Without the jitter it does not
    decrease with the retries exactly if no product overflows, as long as the number of
    retries can be counted up. -/
theorem backoff_bounds_iff :
    (∀ job : Job, w.backoff job =
      wrap64 (w.retry.delay job.retryCount + deterministicJitter job w.retry.jitterMax)) ∧
    (∀ job : Job, (min w.retry.base w.retry.max ≤ w.backoff job ∧
      w.backoff job ≤ w.retry.max + w.retry.jitterMax) ↔ w.retry.Fits job.retryCount) ∧
    (∀ (a : Attempt) (job r : Job) (s : State), a.storeErr = none →
      s.db.jobs.find job.id = some r → DB.Retries job (w.attempt a job s.breaker).1 →
      ∃ r', (w.process a job s).2.db.jobs.find job.id = some r' ∧
        (a.clock ≤ r'.scheduledAt ↔ w.retry.Fits job.retryCount)) ∧
    ((∀ m n, int64Min ≤ m → m ≤ n → n < int64Max → w.retry.delay m ≤ w.retry.delay n) ↔
      w.retry.base * 2 ^ 10 ≤ int64Max) ∧
    ((∀ m n, int64Min ≤ m → m ≤ n → n ≤ int64Max → w.retry.delay m ≤ w.retry.delay n) ↔
      w.retry.base * 2 ^ 10 ≤ int64Max ∧ w.retry.max ≤ w.retry.base) := by
  refine ⟨backoff_eq hw hp, backoff_mem_iff hw hp, fun a job r s hstore hrow hretries => ?_,
    RetryPolicy.delay_mono_iff hp, RetryPolicy.delay_mono_all_iff hp⟩
  obtain ⟨message, hfind⟩ := process_retries w hstore hrow hretries
  refine ⟨_, hfind, ?_⟩
  rw [← backoff_nonneg_iff hw hp]
  exact le_add_iff_nonneg_right a.clock

end Worker

/-- The worker as it is configured by default, up to the base of the delay. -/
def retryingWorker (base : ℤ) : Worker := ⟨true, true, 4, none, ⟨base, 900 * second, 15 * second⟩⟩

theorem retryingWorker_valid {base : ℤ} (h₀ : 0 < base) (h₁ : base ≤ int64Max) :
    (retryingWorker base).retry.Valid where
  base_pos := h₀
  base_le := h₁
  max_pos := (by decide : 0 < 900 * second)
  jitterMax_nonneg := (by decide : 0 ≤ 15 * second)
  sum_le := (by decide : 900 * second + 15 * second ≤ int64Max)

theorem backoff_bounds_default :
    (retryingWorker (30 * second)).retry.Valid ∧
    (∀ job : Job, 30 * second ≤ (retryingWorker (30 * second)).backoff job ∧
      (retryingWorker (30 * second)).backoff job ≤ 915 * second) ∧
    ∀ m n, int64Min ≤ m → m ≤ n → n < int64Max →
      (retryingWorker (30 * second)).retry.delay m ≤ (retryingWorker (30 * second)).retry.delay n := by
  have hvalid : (retryingWorker (30 * second)).retry.Valid :=
    retryingWorker_valid (by decide) (by decide)
  obtain ⟨-, hbounds, -, hmono, -⟩ := Worker.backoff_bounds_iff rfl hvalid
  refine ⟨hvalid, fun job => ?_, hmono.2 (by decide)⟩
  exact (hbounds job).2 (RetryPolicy.fits_of_le hvalid (by decide) job.retryCount)

/-- A base of more than 104 days overflows after ten retries, and a retry count that
    cannot be counted up gives the first delay again. -/
theorem backoff_overflows :
    (retryingWorker (9007200 * second)).retry.Valid ∧
    (retryingWorker (9007200 * second)).backoff
      { Job.sample 7 "funding" 20 0 with retryCount := 10 } < 0 ∧
    (retryingWorker (9007200 * second)).retry.delay 10 <
      (retryingWorker (9007200 * second)).retry.delay 9 ∧
    (retryingWorker (30 * second)).retry.delay int64Max <
      (retryingWorker (30 * second)).retry.delay 10 := by
  have hvalid : (retryingWorker (9007200 * second)).retry.Valid :=
    retryingWorker_valid (by decide) (by decide)
  refine ⟨hvalid, ?_, by decide +kernel, by decide +kernel⟩
  exact (Worker.backoff_of_not_fits rfl hvalid (by unfold RetryPolicy.Fits; decide)).2

end Aggregator.Scheduler
