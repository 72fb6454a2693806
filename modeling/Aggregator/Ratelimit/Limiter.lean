/-
  The buckets of the rate limiter (`internal/ratelimit/limiter.go`), with rational
  token counts.

  Each exchange has a `Bucket` with two token counts, one refilled at
  `requestsPerSecond` and one at `requestsPerMinute / 60`.  `Bucket.reserve`
  refills both, deducts `weight` tokens from both if both have them, and
  otherwise returns the time until they do.

  The limiter as it computes with floats, and the loop of `Wait`, are in `Machine`.
-/
import Aggregator.Go.Time
import Aggregator.Go.Strings

namespace Aggregator.Ratelimit

open Aggregator.Go

structure Key where
  exchange : String
  endpoint : String
  dataType : String
deriving DecidableEq, Repr

/-- `Key.String`. -/
def Key.string (k : Key) : String :=
  ":".intercalate [toLower (trimSpace k.exchange), trimSpace k.endpoint, trimSpace k.dataType]

structure Budget where
  requestsPerSecond : ℚ
  requestsPerMinute : ℚ
  burst : ℤ
  jitterMin : ℤ
  jitterMax : ℤ
deriving DecidableEq, Repr

structure Bucket where
  budget : Budget
  secondTokens : ℚ
  minuteTokens : ℚ
  lastRefill : ℤ
deriving DecidableEq, Repr

def newBucket (budget : Budget) (now : ℤ) : Bucket where
  budget := budget
  secondTokens := budget.burst
  minuteTokens := max budget.requestsPerMinute budget.burst
  lastRefill := now

def delayFor (missing refillPerSecond : ℚ) : ℤ :=
  if missing ≤ 0 ∨ refillPerSecond ≤ 0 then 0
  else float64ToInt64 (missing / refillPerSecond * second)

namespace Bucket

def refill (b : Bucket) (now : ℤ) : Bucket :=
  if now < b.lastRefill then { b with lastRefill := now }
  else
    let elapsed := seconds (timeSub now b.lastRefill)
    if elapsed ≤ 0 then b
    else
      let burst : ℚ := b.budget.burst
      let minuteBurst := max b.budget.requestsPerMinute burst
      { b with
        secondTokens := min burst (b.secondTokens + elapsed * b.budget.requestsPerSecond)
        minuteTokens := min minuteBurst
          (b.minuteTokens + elapsed * (b.budget.requestsPerMinute / 60))
        lastRefill := now }

/-- The burst raised to `weight`, so that a heavy request can ever be served. -/
def raise (b : Bucket) (weight : ℤ) : Bucket :=
  if weight > b.budget.burst then { b with budget := { b.budget with burst := weight } } else b

/-- Both counts hold `weight` tokens: the branch of `reserve` that deducts. -/
def has (b : Bucket) (weight : ℤ) : Bool :=
  (weight : ℚ) ≤ b.secondTokens && (weight : ℚ) ≤ b.minuteTokens

def reserve (b : Bucket) (now weight : ℤ) : ℤ × Bucket :=
  let b := (b.raise weight).refill now
  let needed : ℚ := weight
  if b.has weight then
    (0, { b with secondTokens := b.secondTokens - needed, minuteTokens := b.minuteTokens - needed })
  else
    let secondDelay := delayFor (needed - b.secondTokens) b.budget.requestsPerSecond
    let minuteDelay := delayFor (needed - b.minuteTokens) (b.budget.requestsPerMinute / 60)
    (max secondDelay minuteDelay, b)

end Bucket

/-! ## The limiter -/

structure Limiter where
  buckets : String → Option Bucket

/-- The key under which an exchange's bucket is stored. -/
def exchangeKey (exchange : String) : String := toLower (trimSpace exchange)

namespace Limiter

/-- `NewLimiter`. -/
def new : Limiter := ⟨fun _ => none⟩

def set (l : Limiter) (exchange : String) (b : Bucket) : Limiter :=
  ⟨fun e => if e = exchange then some b else l.buckets e⟩

def configure (l : Limiter) (exchange : String) (budget : Budget) (now : ℤ) :
    Except String Limiter :=
  let exchange := exchangeKey exchange
  if exchange = "" then .error "exchange is required"
  else if budget.requestsPerSecond ≤ 0 then .error "requests per second must be greater than 0"
  else
    let budget := if budget.requestsPerMinute ≤ 0 then
      { budget with requestsPerMinute := budget.requestsPerSecond * 60 } else budget
    let budget := if budget.burst ≤ 0 then
      { budget with burst := max 1 (float64ToInt64 budget.requestsPerSecond) } else budget
    let budget := if budget.jitterMax < budget.jitterMin then
      { budget with jitterMax := budget.jitterMin } else budget
    .ok (l.set exchange (newBucket budget now))

end Limiter

end Aggregator.Ratelimit
