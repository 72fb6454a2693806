/-
  The circuit breaker (`internal/ratelimit/circuit_breaker.go`).

  A circuit for each key counts the failures since the last success.  At the
  threshold it opens for the cooldown, during which `allow` refuses the key;
  the first call after it half-opens the circuit, which a failure opens again
  and enough successes close.
-/
import Aggregator.Go.Date
import Aggregator.Go.Errors
import Aggregator.Ratelimit.Limiter

namespace Aggregator.Ratelimit

open Aggregator.Go

inductive CircuitState where
  | closed
  | open_
  | halfOpen
deriving DecidableEq, Repr

/-- The kinds of failures; `empty` is the empty string. -/
inductive FailureKind where
  | empty
  | rateLimited
  | serverError
  | timeout
  | networkError
  | badRequest
  | unauthorized
  | notFound
  | invalidSymbol
  | invalidResponse
  | normalizerError
  | unknown
deriving DecidableEq, Repr

def FailureKind.string : FailureKind → String
  | empty => ""
  | rateLimited => "rate_limited"
  | serverError => "server_error"
  | timeout => "timeout"
  | networkError => "network_error"
  | badRequest => "bad_request"
  | unauthorized => "unauthorized"
  | notFound => "not_found"
  | invalidSymbol => "invalid_symbol"
  | invalidResponse => "invalid_response"
  | normalizerError => "normalizer_error"
  | unknown => "unknown"

structure CircuitSettings where
  failureThreshold : ℤ
  cooldown : ℤ
  halfOpenMaxPasses : ℤ
deriving DecidableEq, Repr

structure Circuit where
  state : CircuitState
  failures : ℤ
  lastFailure : FailureKind
  openUntil : ℤ
  halfOpenPasses : ℤ
deriving DecidableEq, Repr

structure CircuitBreaker where
  settings : CircuitSettings
  states : String → Option Circuit

namespace CircuitBreaker

/-- `NewCircuitBreaker`. -/
def new (settings : CircuitSettings) : CircuitBreaker where
  settings :=
    { failureThreshold := if settings.failureThreshold ≤ 0 then 5 else settings.failureThreshold
      cooldown := if settings.cooldown ≤ 0 then 30 * second else settings.cooldown
      halfOpenMaxPasses :=
        if settings.halfOpenMaxPasses ≤ 0 then 1 else settings.halfOpenMaxPasses }
  states := fun _ => none

/-- The circuit of a key, a new one being closed. -/
def stateFor (b : CircuitBreaker) (key : Key) : Circuit :=
  (b.states key.string).getD ⟨.closed, 0, .empty, 0, 0⟩

def set (b : CircuitBreaker) (key : Key) (c : Circuit) : CircuitBreaker :=
  { b with states := fun k => if k = key.string then some c else b.states k }

/-- `Allow`: `done` is the error of the context, if it is done. -/
def allow {ε : Type} (b : CircuitBreaker) (done : Option (Err ε)) (key : Key) (now : ℤ) :
    Except (Err ε) CircuitState × CircuitBreaker :=
  match done with
  | some err => (.error err, b)
  | none =>
    let state := b.stateFor key
    match state.state with
    | .open_ =>
      if now < state.openUntil then
        (.error (.new s!"circuit open for {key.string} until {formatRFC3339 state.openUntil}"),
          b.set key state)
      else (.ok .halfOpen, b.set key { state with state := .halfOpen, halfOpenPasses := 0 })
    | s => (.ok s, b.set key state)

def recordSuccess (b : CircuitBreaker) (key : Key) : CircuitBreaker :=
  let state := b.stateFor key
  if state.state = .halfOpen then
    let state := { state with halfOpenPasses := state.halfOpenPasses + 1 }
    if state.halfOpenPasses ≥ b.settings.halfOpenMaxPasses then
      b.set key { state with state := .closed, failures := 0, lastFailure := .empty, openUntil := 0 }
    else b.set key state
  else b.set key { state with failures := 0, lastFailure := .empty }

def recordFailure (b : CircuitBreaker) (key : Key) (kind : FailureKind) (now : ℤ) :
    CircuitBreaker :=
  let state := b.stateFor key
  let state := { state with failures := state.failures + 1, lastFailure := kind }
  if state.state = .halfOpen ∨ state.failures ≥ b.settings.failureThreshold then
    b.set key { state with
      state := .open_, openUntil := now + b.settings.cooldown, halfOpenPasses := 0 }
  else b.set key state

end CircuitBreaker

end Aggregator.Ratelimit
