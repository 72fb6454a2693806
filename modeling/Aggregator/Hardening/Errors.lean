/-
  The classification of errors (`internal/hardening/errors.go`).

  An error is classified by its chain of causes where these are known, and else
  by its text.

  * `transient_iff`: the types `timeout` and `network_error` are given to contexts
    that are done and to errors of the network, and to no other error.
-/
import Aggregator.Scheduler.Models

namespace Aggregator.Hardening

open Aggregator.Go Aggregator.Scheduler

inductive ErrorType where
  | rateLimited
  | serverError
  | timeout
  | network
  | badRequest
  | unauthorized
  | notFound
  | invalidSymbol
  | invalidResponse
  | normalizer
  | unknown
deriving DecidableEq, Repr

def ErrorType.string : ErrorType → String
  | rateLimited => "rate_limited"
  | serverError => "server_error"
  | timeout => "timeout"
  | network => "network_error"
  | badRequest => "bad_request"
  | unauthorized => "unauthorized"
  | notFound => "not_found"
  | invalidSymbol => "invalid_symbol"
  | invalidResponse => "invalid_response"
  | normalizer => "normalizer_error"
  | unknown => "unknown"

structure Classification where
  type : ErrorType
  recoverable : Bool := false
  rateLimited : Bool := false
deriving DecidableEq, Repr

/-- What the chain of an error is looked through for.  Of a `net.Error` only
    `Timeout()` is asked. -/
inductive Fault where
  | execution (e : ExecutionError)
  | net (timeout : Bool)
  | endpointUnavailable
  | endpointInactive
  | unsupportedDataType
deriving DecidableEq, Repr

/-- `errors.As(err, &netErr)`. -/
def asNet (err : Err Fault) : Option Bool :=
  err.chain.findSome? fun c => match c with | .custom (.net timeout) => some timeout | _ => none

def looksLikeInvalidSymbol (body : String) : Bool :=
  let text := toLower body
  contains text "invalid symbol" || contains text "unknown symbol" ||
    contains text "instrument_id" || contains text "symbol invalid"

def classifyHTTPStatus (statusCode : ℤ) (body : String) : Classification :=
  if statusCode = 429 then { type := .rateLimited, recoverable := true, rateLimited := true }
  else if statusCode = 401 ∨ statusCode = 403 then { type := .unauthorized }
  else if statusCode = 404 then { type := .notFound }
  else if statusCode = 400 then
    if looksLikeInvalidSymbol body then { type := .invalidSymbol } else { type := .badRequest }
  else if statusCode ≥ 500 then { type := .serverError, recoverable := true }
  else if statusCode ≥ 400 then { type := .badRequest }
  else { type := .unknown }

/-- The part of `ClassifyError` that looks at the text. -/
def classifyMessage (message : String) : Classification :=
  if contains message "rate limit" || contains message "too many requests" then
    { type := .rateLimited, recoverable := true, rateLimited := true }
  else if contains message "invalid symbol" || contains message "unknown symbol" then
    { type := .invalidSymbol }
  else if contains message "unauthorized" || contains message "forbidden" then
    { type := .unauthorized }
  else if contains message "not found" then { type := .notFound }
  else if contains message "unresolved request placeholder" ||
      contains message "malformed template" then
    { type := .badRequest }
  else if contains message "normalize" || contains message "normalizer" then
    { type := .normalizer }
  else if contains message "parse" || contains message "invalid response" then
    { type := .invalidResponse }
  else { type := .unknown, recoverable := true }

/-- `ClassifyError`; `none` is the nil error. -/
def classifyError (err : Option (Err Fault)) : Classification :=
  match err with
  | none => { type := .unknown }
  | some err =>
    if err.isDeadlineExceeded || err.isCanceled then { type := .timeout, recoverable := true }
    else
      match asNet err with
      | some true => { type := .timeout, recoverable := true }
      | some false => { type := .network, recoverable := true }
      | none => classifyMessage (toLower err.message)

/-- The error is classified as one of a context that is done or of the network. -/
def Transient (err : Err Fault) : Prop :=
  (classifyError (some err)).type = .timeout ∨ (classifyError (some err)).type = .network

instance (err : Err Fault) : Decidable (Transient err) := inferInstanceAs (Decidable (_ ∨ _))

theorem classifyMessage_type (message : String) :
    (classifyMessage message).type ≠ .timeout ∧ (classifyMessage message).type ≠ .network := by
  unfold classifyMessage
  split_ifs <;> decide

/-- **Transient errors** are those of contexts and of the network, whatever their
    texts. -/
theorem transient_iff {err : Err Fault} :
    Transient err ↔
      err.isDeadlineExceeded = true ∨ err.isCanceled = true ∨ (asNet err).isSome = true := by
  rw [← or_assoc, ← Bool.or_eq_true]
  unfold Transient classifyError
  dsimp only
  by_cases hdone : (err.isDeadlineExceeded || err.isCanceled) = true
  · simp [hdone]
  · cases hnet : asNet err with
    | none =>
      obtain ⟨htimeout, hnetwork⟩ := classifyMessage_type (toLower err.message)
      simp [hdone, htimeout, hnetwork]
    | some timeout =>
      cases timeout with
      | false => simp [hdone]
      | true => simp [hdone]

/-- A transient error is recoverable. -/
theorem Transient.recoverable {err : Err Fault} (h : Transient err) :
    (classifyError (some err)).recoverable = true := by
  rw [transient_iff, ← or_assoc, ← Bool.or_eq_true] at h
  unfold classifyError
  dsimp only
  split
  · rfl
  · rename_i hdone
    obtain ⟨timeout, hnet⟩ := Option.isSome_iff_exists.1 (h.resolve_left hdone)
    rw [hnet]
    cases timeout with
    | false => rfl
    | true => rfl

end Aggregator.Hardening
