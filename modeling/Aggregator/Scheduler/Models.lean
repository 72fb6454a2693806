/-
  The jobs of the collection queue (`internal/scheduler/models.go`), the
  metadata a worker reads from a job and the classification of execution errors
  (`internal/scheduler/worker.go`).

  A `Job` is a row of `derivative_collection_jobs` as `scanJob` reads it; the
  two columns that are written but never scanned, `next_retry_at` and
  `last_error_type`, are the last fields.  A nullable text column is the empty
  string when it is null.
-/
import Aggregator.Go.Json
import Aggregator.Ratelimit.CircuitBreaker

namespace Aggregator.Scheduler

open Aggregator.Go Aggregator.Ratelimit

inductive JobStatus where
  | pending
  | running
  | succeeded
  | failed
  | deadLetter
  | cancelled
deriving DecidableEq, Repr

/-- The statuses a job is meant to keep. -/
def JobStatus.Terminal (s : JobStatus) : Prop := s = .succeeded ∨ s = .deadLetter

structure Job where
  id : ℤ
  exchange : String
  dataType : String
  tier : String
  symbolID : ℤ
  sourceSymbol : String
  period : String
  idempotencyKey : String
  status : JobStatus
  priority : ℤ
  scheduledAt : ℤ
  startedAt : Option ℤ
  finishedAt : Option ℤ
  retryCount : ℤ
  maxRetry : ℤ
  errorMessage : String
  metadata : Option Json
  updatedAt : ℤ
  nextRetryAt : Option ℤ
  lastErrorType : String

/-! ## Planned jobs -/

/-- `IdempotencyKey`. -/
def idempotencyKey (exchange dataType : String) (symbolID : ℤ) (sourceSymbol period : String)
    (scheduledBucket : ℤ) : String :=
  ":".intercalate [toLower (trimSpace exchange), trimSpace dataType, toString symbolID,
    trimSpace sourceSymbol, trimSpace period, formatRFC3339 scheduledBucket]

/-- `ScheduledBucket`. -/
def scheduledBucket (t intervalSeconds : ℤ) : ℤ :=
  if intervalSeconds ≤ 0 then t else truncate t (wrap64 (intervalSeconds * second))

/-- The job the planner makes for a symbol market and a bucket. -/
def Job.planned (id : ℤ) (exchange dataType tier : String) (symbolID : ℤ)
    (sourceSymbol period : String) (priority maxRetry : ℤ) (metadata : Json) (bucket : ℤ) : Job where
  id := id
  exchange := exchange
  dataType := dataType
  tier := tier
  symbolID := symbolID
  sourceSymbol := sourceSymbol
  period := period
  idempotencyKey := Scheduler.idempotencyKey exchange dataType symbolID sourceSymbol period bucket
  status := .pending
  priority := priority
  scheduledAt := bucket
  startedAt := none
  finishedAt := none
  retryCount := 0
  maxRetry := maxRetry
  errorMessage := ""
  metadata := some metadata
  updatedAt := bucket
  nextRetryAt := none
  lastErrorType := ""

/-- A job of one policy, for examples. -/
def Job.sample (id : ℤ) (dataType : String) (maxRetry bucket : ℤ) : Job :=
  .planned id "binance" dataType "all" 1 "BTCUSDT" "" 100 maxRetry (.obj []) bucket

/-! ## Execution errors -/

structure ExecutionError where
  kind : FailureKind
  recoverable : Bool
deriving DecidableEq, Repr

/-- The errors of the scheduler: those `errors.As` finds are `ExecutionError`s. -/
abbrev Error := Err ExecutionError

/-- `NewExecutionError`. -/
def newExecutionError (kind : FailureKind) (recoverable : Bool) (err : Option Error) : Error :=
  let err := err.getD (.new kind.string)
  ⟨err.message, .custom ⟨kind, recoverable⟩ :: err.chain⟩

def classifyExecutionError (err : Error) : FailureKind × Bool :=
  match err.as with
  | some e => (e.kind, e.recoverable)
  | none => if err.isDeadlineExceeded then (.timeout, true) else (.serverError, true)

/-! ## Runtime metadata -/

/-- A member of the metadata of a job. -/
def metadataField (job : Job) (name : String) : Option Json :=
  match job.metadata with
  | some (.obj fields) => (fields.find? fun f => f.1 = name).map Prod.snd
  | _ => none

structure RuntimeMetadata where
  endpointID : ℤ
  endpointName : String
  endpointDataType : String
  requiresEndpoint : Bool
  requestWeight : ℤ
  timeoutMS : ℤ
  rateLimitPerSecond : ℚ
  rateLimitPerMinute : ℤ

namespace RuntimeMetadata

/-- Decoding one member of the metadata; names are compared as `encoding/json`
    compares them. -/
def setField (m : RuntimeMetadata) (name : String) (v : Json) : Option RuntimeMetadata :=
  if equalFold name "endpoint_id" then
    (v.decodeInt m.endpointID).map fun x => { m with endpointID := x }
  else if equalFold name "endpoint_name" then
    (v.decodeString m.endpointName).map fun x => { m with endpointName := x }
  else if equalFold name "endpoint_data_type" then
    (v.decodeString m.endpointDataType).map fun x => { m with endpointDataType := x }
  else if equalFold name "requires_endpoint" then
    (v.decodeBool m.requiresEndpoint).map fun x => { m with requiresEndpoint := x }
  else if equalFold name "request_weight" then
    (v.decodeInt m.requestWeight).map fun x => { m with requestWeight := x }
  else if equalFold name "timeout_ms" then
    (v.decodeInt m.timeoutMS).map fun x => { m with timeoutMS := x }
  else if equalFold name "rate_limit_per_second" then
    (v.decodeFloat m.rateLimitPerSecond).map fun x => { m with rateLimitPerSecond := x }
  else if equalFold name "rate_limit_per_minute" then
    (v.decodeInt m.rateLimitPerMinute).map fun x => { m with rateLimitPerMinute := x }
  else some m

/-- The metadata of a job without any, up to the endpoint's name. -/
def default (endpointName : String) : RuntimeMetadata where
  endpointID := 0
  endpointName := endpointName
  endpointDataType := ""
  requiresEndpoint := true
  requestWeight := 1
  timeoutMS := 10000
  rateLimitPerSecond := 0
  rateLimitPerMinute := 0

end RuntimeMetadata

def runtimeMetadataFromJob (job : Job) : RuntimeMetadata :=
  match job.metadata with
  | none => .default "internal"
  | some raw =>
    match raw.unmarshal RuntimeMetadata.setField (.default "internal") with
    | none => .default "invalid_metadata"
    | some m =>
      { m with
        endpointName := if m.endpointName = "" then "internal" else m.endpointName
        requestWeight := if m.requestWeight ≤ 0 then 1 else m.requestWeight
        timeoutMS := if m.timeoutMS ≤ 0 then 10000 else m.timeoutMS }

end Aggregator.Scheduler
