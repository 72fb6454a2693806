/-
  The rate limiter as it computes with floats (`internal/ratelimit/limiter.go`).

  Rates and token counts are floats of a type with an `Arithmetic`.  With the exact
  operations of the rationals a bucket is one of `Limiter.lean` (`reserve_exact`).

  `Limiter.wait` calls `Bucket.reserve` in a loop, sleeping between the passes.  The
  clock, the random source and the context are its environment: pass `k` of the loop
  reads the clock at `now`, gets the value `draw` from `Int63n`, and finds the context
  done before its timer or not.  The loop is unbounded in the source, so `waitLoop`
  takes fuel and returns `none` when it runs out.  `WaitResult.reservations` counts the
  passes that deducted tokens; the source does not keep it.
-/
import Aggregator.Go.Float64
import Aggregator.Ratelimit.Limiter

namespace Aggregator.Ratelimit.Machine

open Aggregator.Go Arithmetic

structure Budget (F : Type) where
  requestsPerSecond : F
  requestsPerMinute : F
  burst : ℤ
  jitterMin : ℤ
  jitterMax : ℤ
deriving DecidableEq, Repr

structure Bucket (F : Type) where
  budget : Budget F
  secondTokens : F
  minuteTokens : F
  lastRefill : ℤ
deriving DecidableEq, Repr

section
variable {F : Type} [Arithmetic F]

def minFloat (a b : F) : F := if lt a b then a else b

def maxFloat (a b : F) : F := if lt b a then a else b

/-- `d.Seconds()`. -/
def seconds (d : ℤ) : F :=
  add (ofInt (d.tdiv second)) (div (ofInt (d.tmod second)) (ofInt second))

def newBucket (budget : Budget F) (now : ℤ) : Bucket F where
  budget := budget
  secondTokens := ofInt budget.burst
  minuteTokens := maxFloat budget.requestsPerMinute (ofInt budget.burst)
  lastRefill := now

def delayFor (missing refillPerSecond : F) : ℤ :=
  if le missing (ofInt 0) || le refillPerSecond (ofInt 0) then 0
  else toInt64 (mul (div missing refillPerSecond) (ofInt second))

namespace Bucket

def refill (b : Bucket F) (now : ℤ) : Bucket F :=
  if now < b.lastRefill then { b with lastRefill := now }
  else
    let elapsed : F := seconds (timeSub now b.lastRefill)
    if le elapsed (ofInt 0) then b
    else
      let burst : F := ofInt b.budget.burst
      let minuteBurst := maxFloat b.budget.requestsPerMinute burst
      { b with
        secondTokens := minFloat burst (addMul b.secondTokens elapsed b.budget.requestsPerSecond)
        minuteTokens := minFloat minuteBurst
          (addMul b.minuteTokens elapsed (div b.budget.requestsPerMinute (ofInt 60)))
        lastRefill := now }

/-- The burst raised to `weight`, so that a heavy request can ever be served. -/
def raise (b : Bucket F) (weight : ℤ) : Bucket F :=
  if weight > b.budget.burst then { b with budget := { b.budget with burst := weight } } else b

/-- The bucket as a request for `weight` tokens finds it. -/
def read (b : Bucket F) (now weight : ℤ) : Bucket F := (b.raise weight).refill now

/-- Both counts hold `weight` tokens: the branch of `reserve` that deducts. -/
def has (b : Bucket F) (weight : ℤ) : Bool :=
  le (ofInt weight) b.secondTokens && le (ofInt weight) b.minuteTokens

def deduct (b : Bucket F) (weight : ℤ) : Bucket F :=
  { b with
    secondTokens := sub b.secondTokens (ofInt weight)
    minuteTokens := sub b.minuteTokens (ofInt weight) }

/-- The larger of the two times until the counts hold `weight` tokens. -/
def delay (b : Bucket F) (weight : ℤ) : ℤ :=
  max (delayFor (sub (ofInt weight) b.secondTokens) b.budget.requestsPerSecond)
    (delayFor (sub (ofInt weight) b.minuteTokens) (div b.budget.requestsPerMinute (ofInt 60)))

def reserve (b : Bucket F) (now weight : ℤ) : ℤ × Bucket F :=
  let b := b.read now weight
  if b.has weight then (0, b.deduct weight) else (b.delay weight, b)

end Bucket

/-! ## The limiter -/

structure Limiter (F : Type) where
  buckets : String → Option (Bucket F)

namespace Limiter

/-- `NewLimiter`. -/
def new : Limiter F := ⟨fun _ => none⟩

def set (l : Limiter F) (exchange : String) (b : Bucket F) : Limiter F :=
  ⟨fun e => if e = exchange then some b else l.buckets e⟩

def configure (l : Limiter F) (exchange : String) (budget : Budget F) (now : ℤ) :
    Except String (Limiter F) :=
  let exchange := exchangeKey exchange
  if exchange = "" then .error "exchange is required"
  else if le budget.requestsPerSecond (ofInt 0) then
    .error "requests per second must be greater than 0"
  else
    let budget := if le budget.requestsPerMinute (ofInt 0) then
      { budget with requestsPerMinute := mul budget.requestsPerSecond (ofInt 60) } else budget
    let budget := if budget.burst ≤ 0 then
      { budget with burst := max 1 (toInt64 budget.requestsPerSecond) } else budget
    let budget := if budget.jitterMax < budget.jitterMin then
      { budget with jitterMax := budget.jitterMin } else budget
    .ok (l.set exchange (newBucket budget now))

/-- The jitter of a pass whose delay is zero, `draw` being what `Int63n`
    returns. -/
def jitter (budget : Budget F) (draw : ℤ) : ℤ :=
  if budget.jitterMax > 0 then
    let span := wrap64 (budget.jitterMax - budget.jitterMin)
    if span > 0 then wrap64 (budget.jitterMin + draw) else budget.jitterMin
  else 0

/-- `Limiter.reserve`: the delay, the jitter, and the limiter after it. -/
def reserve (l : Limiter F) (exchange : String) (weight now draw : ℤ) :
    Except String (ℤ × ℤ × Limiter F) :=
  match l.buckets exchange with
  | none => .error s!"rate limit budget for {exchange} is not configured"
  | some bucket =>
    let (delay, bucket) := bucket.reserve now weight
    let jit := if delay = 0 then jitter bucket.budget draw else 0
    .ok (delay, jit, l.set exchange bucket)

end Limiter

/-- What the environment decides in one pass of the loop of `wait`. -/
structure Pass where
  now : ℤ
  draw : ℤ
  cancelled : Bool

structure WaitResult (F : Type) where
  err : Option String
  limiter : Limiter F
  reservations : ℕ

namespace Limiter

/-- Whether `reserve` deducts tokens from the bucket of `exchange`. -/
def grants (l : Limiter F) (exchange : String) (weight now : ℤ) : Bool :=
  match l.buckets exchange with
  | none => false
  | some b => (b.read now weight).has weight

/-- The loop of `Wait` from pass `k` on, after `n` reservations. -/
def waitLoop (exchange : String) (weight : ℤ) (env : ℕ → Pass) :
    ℕ → ℕ → Limiter F → ℕ → Option (WaitResult F)
  | 0, _, _, _ => none
  | fuel + 1, k, l, n =>
    match l.reserve exchange weight (env k).now (env k).draw with
    | .error e => some ⟨some e, l, n⟩
    | .ok (delay, jitter, l') =>
      let n' := if l.grants exchange weight (env k).now then n + 1 else n
      let waitFor := wrap64 (delay + jitter)
      if waitFor ≤ 0 then some ⟨none, l', n'⟩
      else if (env k).cancelled then some ⟨some "context canceled", l', n'⟩
      else waitLoop exchange weight env fuel (k + 1) l' n'

/-- `Limiter.Wait`. -/
def wait (fuel : ℕ) (l : Limiter F) (key : Key) (weight : ℤ) (env : ℕ → Pass) :
    Option (WaitResult F) :=
  let weight := if weight ≤ 0 then 1 else weight
  let exchange := exchangeKey key.exchange
  if exchange = "" then some ⟨some "exchange is required", l, 0⟩
  else waitLoop exchange weight env fuel 0 l 0

end Limiter

end

/-! ## Exact operations -/

/-- The bucket of rational tokens. -/
def Bucket.exact (b : Bucket ℚ) : Ratelimit.Bucket where
  budget := ⟨b.budget.requestsPerSecond, b.budget.requestsPerMinute, b.budget.burst,
    b.budget.jitterMin, b.budget.jitterMax⟩
  secondTokens := b.secondTokens
  minuteTokens := b.minuteTokens
  lastRefill := b.lastRefill

section
variable (b : Bucket ℚ) (now weight : ℤ)

theorem seconds_exact (d : ℤ) : (seconds d : ℚ) = Go.seconds d := by
  have hsplit : (d : ℚ) = d.tmod second + second * d.tdiv second := by
    exact_mod_cast (Int.tmod_add_mul_tdiv d second).symm
  have hs : (second : ℚ) = 1000000000 := by norm_num [second]
  change (d.tdiv second : ℚ) + d.tmod second / second = d / 1000000000
  rw [hsplit, hs]
  ring

theorem minFloat_exact (x y : ℚ) : minFloat x y = min x y := by
  change (if decide (x < y) then x else y) = min x y
  rw [min_def_lt]
  simp

theorem maxFloat_exact (x y : ℚ) : maxFloat x y = max x y := by
  change (if decide (y < x) then x else y) = max x y
  rw [max_comm, max_def_lt]
  simp

theorem delayFor_exact (missing rate : ℚ) :
    delayFor missing rate = Ratelimit.delayFor missing rate := by
  change (if decide (missing ≤ ((0 : ℤ) : ℚ)) || decide (rate ≤ ((0 : ℤ) : ℚ)) then 0
    else float64ToInt64 (missing / rate * second)) = _
  simp [Ratelimit.delayFor]

namespace Bucket

theorem raise_exact : (b.raise weight).exact = b.exact.raise weight := by
  by_cases h : weight > b.budget.burst
  · have h' : weight > b.exact.budget.burst := h
    rw [raise, if_pos h, Ratelimit.Bucket.raise, if_pos h']
    rfl
  · have h' : ¬weight > b.exact.budget.burst := h
    rw [raise, if_neg h, Ratelimit.Bucket.raise, if_neg h']

theorem refill_exact : (b.refill now).exact = b.exact.refill now := by
  have helapsed : le (seconds (timeSub now b.lastRefill) : ℚ) (ofInt 0) =
      decide (Go.seconds (timeSub now b.lastRefill) ≤ 0) := by
    rw [seconds_exact]
    change decide (_ ≤ ((0 : ℤ) : ℚ)) = _
    simp
  have hlast : b.exact.lastRefill = b.lastRefill := rfl
  rw [refill, Ratelimit.Bucket.refill, hlast]
  split
  · rfl
  · dsimp only
    rw [helapsed, minFloat_exact, minFloat_exact, maxFloat_exact, seconds_exact]
    by_cases hle : Go.seconds (timeSub now b.lastRefill) ≤ 0
    · rw [if_pos (decide_eq_true hle), if_pos hle]
    · rw [if_neg (by simpa using hle), if_neg hle]
      rfl

/-- **With exact operations the limiter's buckets are those of rational tokens.** -/
theorem reserve_exact :
    ((b.reserve now weight).1, (b.reserve now weight).2.exact) = b.exact.reserve now weight := by
  have hread : (b.read now weight).exact = (b.exact.raise weight).refill now := by
    rw [read, refill_exact, raise_exact]
  have hhas : (b.read now weight).has weight = ((b.exact.raise weight).refill now).has weight := by
    rw [← hread]
    rfl
  unfold reserve Ratelimit.Bucket.reserve
  dsimp only
  rw [← hhas]
  split
  · rw [← hread]
    rfl
  · rw [← hread, delay, delayFor_exact, delayFor_exact]
    rfl

end Bucket

end

end Aggregator.Ratelimit.Machine
