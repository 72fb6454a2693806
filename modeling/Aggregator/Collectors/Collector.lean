/-
  The collector (`internal/collectors/core/collector.go`).

  `Execute` looks up the symbol, the endpoint and the adapter of a job, builds and
  sends the request, normalizes the response and writes the result.  The stages
  are functions that answer or fail with any error; `Normalize` can also panic.
  Each of the places where `Execute` returns decides by itself whether the error
  is recoverable.  Of the health reports and the request log the fields that
  depend on the outcome are kept.

  * `execute_of_failsAt`: what is returned for an error of a stage;
  * `execute_error_cases`: where an error that is returned comes from;
  * `transient_recoverable_iff`: for which stages an error of a context or of the
    network leads to another attempt;
  * `deadline_in_lookup`: a deadline that passes while the symbol is looked up ends
    the job.
-/
import Aggregator.Exchanges.Common
import Aggregator.Hardening.Errors
import Aggregator.Scheduler.Registry
import Aggregator.Scheduler.Worker

namespace Aggregator.Collectors

open Aggregator.Exchanges Aggregator.Go Aggregator.Hardening Aggregator.Normalizers
  Aggregator.Ratelimit Aggregator.Scheduler

/-! ## Errors -/

/-- `NewExecutionError` for an error that is not nil. -/
def executionError (kind : FailureKind) (recoverable : Bool) (err : Err Fault) : Err Fault :=
  ⟨err.message, .custom (.execution ⟨kind, recoverable⟩) :: err.chain⟩

/-- The error as the worker sees it: only execution errors are looked for. -/
def forWorker (err : Err Fault) : Scheduler.Error where
  message := err.message
  chain := err.chain.map fun c => match c with
    | .custom (.execution e) => .custom e
    | .custom _ | .other => .other
    | .canceled => .canceled
    | .deadlineExceeded => .deadlineExceeded

theorem forWorker_executionError (kind : FailureKind) (recoverable : Bool) (err : Err Fault) :
    forWorker (executionError kind recoverable err) =
      newExecutionError kind recoverable (some (forWorker err)) := rfl

def failureKind : ErrorType → FailureKind
  | .rateLimited => .rateLimited
  | .serverError => .serverError
  | .timeout => .timeout
  | .network => .networkError
  | .badRequest => .badRequest
  | .unauthorized => .unauthorized
  | .notFound => .notFound
  | .invalidSymbol => .invalidSymbol
  | .invalidResponse => .invalidResponse
  | .normalizer => .normalizerError
  | .unknown => .unknown

/-- `FailureParse`. -/
def failureParse : FailureKind := .invalidResponse

/-- The error is one of those that the collector does not try again. -/
def isSentinel (err : Err Fault) : Bool :=
  err.is .endpointUnavailable || err.is .endpointInactive || err.is .unsupportedDataType

def classifyCollectorError (err : Err Fault) : Err Fault :=
  if err.isDeadlineExceeded then executionError .timeout true err
  else if isSentinel err then executionError .badRequest false err
  else
    let classification := classifyError (some err)
    executionError (failureKind classification.type) classification.recoverable err

def classifyErrorType (err : Err Fault) : String :=
  match (forWorker err).as with
  | some e => e.kind.string
  | none =>
    if err.isDeadlineExceeded then FailureKind.timeout.string
    else (classifyError (some err)).type.string

/-! ## Execution -/

structure Request where
  url : String
  path : String
deriving DecidableEq, Repr

/-- The response of an exchange; `text` is its body. -/
structure Response extends ExchangeResponse where
  statusCode : ℤ
  text : String

/-- How a call ends that does not return a value. -/
inductive Stop where
  | error (err : Err Fault)
  | panic (text : String)
deriving DecidableEq, Repr

/-- `ExchangeAdapter`. -/
structure Adapter where
  buildRequest : EndpointRow → Job → Symbol → Except (Err Fault) Request
  execute : Request → Except (Err Fault) Response
  normalize : String → Response → Job → Symbol → Except Stop NormalizedResult

/-- The logs and the health reports may be nil. -/
structure Collector where
  getByID : ℤ → Except (Err Fault) EndpointRow
  resolveActive : String → String → String → String → Except (Err Fault) EndpointRow
  getSymbolByID : ℤ → Except (Err Fault) Symbol
  adapters : String → Except (Err Fault) Adapter
  write : String → NormalizedResult → Job → Option (Err Fault)
  hasLogs : Bool
  hasHealth : Bool

/-- What is recorded of an execution. -/
inductive Record where
  | health (status message : String)
  | request (endpointID : ℤ) (req : Request) (statusCode : Option ℤ) (errorType : String)
      (rateLimited : Bool)
deriving DecidableEq, Repr

/-- `meta[name].(string)`; of members with the same name the last one counts. -/
def metadataText (job : Job) (name : String) : String :=
  match job.metadata with
  | some (.obj fields) =>
    match fields.reverse.find? fun f => f.1 = name with
    | some (_, .str s) => s
    | _ => ""
  | _ => ""

namespace Collector
variable (c : Collector)

def endpointForJob (job : Job) : Except (Err Fault) EndpointRow :=
  let metadata := runtimeMetadataFromJob job
  if 0 < metadata.endpointID then c.getByID metadata.endpointID
  else if metadata.endpointName = "" ∨ metadata.endpointDataType = "" then
    .error (.new "job metadata missing endpoint identity")
  else
    let marketType := metadataText job "market_type"
    if marketType = "" then .error (.new "job metadata missing market_type")
    else c.resolveActive job.exchange marketType metadata.endpointDataType metadata.endpointName

variable {c} in
/-- A job that names its endpoint. -/
theorem endpointForJob_of_id {job : Job} (h : 0 < (runtimeMetadataFromJob job).endpointID) :
    c.endpointForJob job = c.getByID (runtimeMetadataFromJob job).endpointID := by
  rw [endpointForJob, if_pos h]

def reportHealth (status message : String) : List Record :=
  if c.hasHealth then [.health status message] else []

def logRequest (endpoint : EndpointRow) (req : Request) (outcome : Except (Err Fault) Response) :
    List Record :=
  if c.hasLogs then
    match outcome with
    | .error err => [.request endpoint.id req none (classifyErrorType err) false]
    | .ok resp =>
      let errorType := if resp.statusCode ≥ 400 then
        (classifyHTTPStatus resp.statusCode resp.text).type.string else ""
      [.request endpoint.id req (some resp.statusCode) errorType (resp.statusCode = 429)]
  else []

/-- `Execute` returns an error, `err` being the one that is reported. -/
def giveUp (status : String) (err returned : Err Fault) : Except Stop Unit × List Record :=
  (.error (.error returned), c.reportHealth status err.message)

/-- The part of `Execute` after the response was received. -/
def handleResponse (adapter : Adapter) (resp : Response) (job : Job) (symbol : Symbol) :
    Except Stop Unit × List Record :=
  let refused (status : String) :=
    let classification := classifyHTTPStatus resp.statusCode resp.text
    let err := .new s!"exchange returned status {resp.statusCode}"
    c.giveUp status err
      (executionError (failureKind classification.type) classification.recoverable err)
  if resp.statusCode = 429 ∨ resp.statusCode ≥ 500 then refused "degraded"
  else if resp.statusCode ≥ 400 then refused "unhealthy"
  else
    match adapter.normalize job.dataType resp job symbol with
    | .error (.panic text) => (.error (.panic text), [])
    | .error (.error err) => c.giveUp "unhealthy" err (classifyCollectorError err)
    | .ok result =>
      match c.write job.dataType result job with
      | some err => c.giveUp "unhealthy" err (executionError .serverError true err)
      | none => (.ok (), c.reportHealth "healthy" "")

def execute (job : Job) : Except Stop Unit × List Record :=
  match c.getSymbolByID job.symbolID with
  | .error err => c.giveUp "unhealthy" err (executionError failureParse false err)
  | .ok symbol =>
    if job.sourceSymbol = "" then
      let err := .new "missing source_symbol"
      c.giveUp "unhealthy" err (executionError failureParse false err)
    else
      match c.endpointForJob job with
      | .error err => c.giveUp "degraded" err (executionError failureParse false err)
      | .ok endpoint =>
        match c.adapters job.exchange with
        | .error err => c.giveUp "unhealthy" err (executionError failureParse false err)
        | .ok adapter =>
          match adapter.buildRequest endpoint job symbol with
          | .error err => c.giveUp "degraded" err (classifyCollectorError err)
          | .ok req =>
            let outcome := adapter.execute req
            let log := c.logRequest endpoint req outcome
            let (result, records) := match outcome with
              | .error err => c.giveUp "degraded" err (classifyCollectorError err)
              | .ok resp => c.handleResponse adapter resp job symbol
            (result, log ++ records)

end Collector

/-! ## The stages -/

inductive Stage where
  | symbol
  | endpoint
  | adapter
  | request
  | http
  | normalize
  | write
deriving DecidableEq, Repr

/-- The stages that only look something up. -/
def Stage.Lookup (stage : Stage) : Prop := stage = .symbol ∨ stage = .endpoint ∨ stage = .adapter

/-- What `Execute` makes of the error of a stage. -/
def Stage.classify (stage : Stage) (err : Err Fault) : Err Fault :=
  match stage with
  | .symbol | .endpoint | .adapter => executionError failureParse false err
  | .request | .http | .normalize => classifyCollectorError err
  | .write => executionError .serverError true err

section
variable (c : Collector) (job : Job)

/-- The lookups of a job answer. -/
structure Found (symbol : Symbol) (endpoint : EndpointRow) (adapter : Adapter) : Prop where
  symbol : c.getSymbolByID job.symbolID = .ok symbol
  sourceSymbol : job.sourceSymbol ≠ ""
  endpoint : c.endpointForJob job = .ok endpoint
  adapter : c.adapters job.exchange = .ok adapter

/-- The exchange answers with a status that is no error. -/
structure Answered (symbol : Symbol) (adapter : Adapter) (resp : Response) : Prop where
  found : ∃ endpoint req, Found c job symbol endpoint adapter ∧
    adapter.buildRequest endpoint job symbol = .ok req ∧ adapter.execute req = .ok resp
  status : resp.statusCode < 400

/-- The execution of the job comes to a stage, which fails. -/
inductive FailsAt : Stage → Err Fault → Prop
  | symbol {err} (h : c.getSymbolByID job.symbolID = .error err) : FailsAt .symbol err
  | endpoint {symbol err} (hsymbol : c.getSymbolByID job.symbolID = .ok symbol)
      (hsource : job.sourceSymbol ≠ "") (h : c.endpointForJob job = .error err) :
      FailsAt .endpoint err
  | adapter {symbol endpoint err} (hsymbol : c.getSymbolByID job.symbolID = .ok symbol)
      (hsource : job.sourceSymbol ≠ "") (hendpoint : c.endpointForJob job = .ok endpoint)
      (h : c.adapters job.exchange = .error err) : FailsAt .adapter err
  | request {symbol endpoint adapter err} (hfound : Found c job symbol endpoint adapter)
      (h : adapter.buildRequest endpoint job symbol = .error err) : FailsAt .request err
  | http {symbol endpoint adapter req err} (hfound : Found c job symbol endpoint adapter)
      (hreq : adapter.buildRequest endpoint job symbol = .ok req)
      (h : adapter.execute req = .error err) : FailsAt .http err
  | normalize {symbol adapter resp err} (hresp : Answered c job symbol adapter resp)
      (h : adapter.normalize job.dataType resp job symbol = .error (.error err)) :
      FailsAt .normalize err
  | write {symbol adapter resp result err} (hresp : Answered c job symbol adapter resp)
      (hresult : adapter.normalize job.dataType resp job symbol = .ok result)
      (h : c.write job.dataType result job = some err) : FailsAt .write err

variable {c job}

/-- After the lookups. -/
theorem Found.execute {symbol : Symbol} {endpoint : EndpointRow} {adapter : Adapter}
    (h : Found c job symbol endpoint adapter) :
    (c.execute job).1 = match adapter.buildRequest endpoint job symbol with
      | .error err => .error (.error (classifyCollectorError err))
      | .ok req => match adapter.execute req with
        | .error err => .error (.error (classifyCollectorError err))
        | .ok resp => (c.handleResponse adapter resp job symbol).1 := by
  simp only [Collector.execute, h.symbol, if_neg h.sourceSymbol, h.endpoint, h.adapter]
  cases adapter.buildRequest endpoint job symbol with
  | error err => rfl
  | ok req =>
    dsimp only
    cases adapter.execute req with
    | error err => rfl
    | ok resp => rfl

/-- After the response. -/
theorem Answered.execute {symbol : Symbol} {adapter : Adapter} {resp : Response}
    (h : Answered c job symbol adapter resp) :
    (c.execute job).1 = match adapter.normalize job.dataType resp job symbol with
      | .error (.panic text) => .error (.panic text)
      | .error (.error err) => .error (.error (classifyCollectorError err))
      | .ok result => match c.write job.dataType result job with
        | some err => .error (.error (executionError .serverError true err))
        | none => .ok () := by
  obtain ⟨⟨endpoint, req, hfound, hreq, hresp⟩, hstatus⟩ := h
  rw [hfound.execute, hreq]
  dsimp only
  rw [hresp]
  have hretry : ¬(resp.statusCode = 429 ∨ resp.statusCode ≥ 500) := by omega
  have hclient : ¬resp.statusCode ≥ 400 := by omega
  simp only [Collector.handleResponse, if_neg hretry, if_neg hclient]
  cases adapter.normalize job.dataType resp job symbol with
  | error stop =>
    cases stop with
    | error err => rfl
    | panic text => rfl
  | ok result =>
    dsimp only
    cases c.write job.dataType result job with
    | none => rfl
    | some err => rfl

/-- **What is returned for an error of a stage.** -/
theorem execute_of_failsAt {stage : Stage} {err : Err Fault} (h : FailsAt c job stage err) :
    (c.execute job).1 = .error (.error (stage.classify err)) := by
  cases h with
  | symbol h =>
    simp only [Collector.execute, h]
    rfl
  | endpoint hsymbol hsource h =>
    simp only [Collector.execute, hsymbol, if_neg hsource, h]
    rfl
  | adapter hsymbol hsource hendpoint h =>
    simp only [Collector.execute, hsymbol, if_neg hsource, hendpoint, h]
    rfl
  | request hfound h =>
    rw [hfound.execute, h]
    rfl
  | http hfound hreq h =>
    rw [hfound.execute, hreq]
    dsimp only
    rw [h]
    rfl
  | normalize hresp h =>
    rw [hresp.execute, h]
    rfl
  | write hresp hresult h =>
    rw [hresp.execute, hresult]
    dsimp only
    rw [h]
    rfl

/-- An error status is returned as a new error. -/
theorem handleResponse_refused (c : Collector) (adapter : Adapter) {resp : Response} (job : Job)
    (symbol : Symbol) (h : 400 ≤ resp.statusCode) : ∃ kind recoverable text,
      (c.handleResponse adapter resp job symbol).1 =
        .error (.error (executionError kind recoverable (.new text))) := by
  unfold Collector.handleResponse
  by_cases hretry : resp.statusCode = 429 ∨ resp.statusCode ≥ 500
  · rw [if_pos hretry]
    exact ⟨_, _, _, rfl⟩
  · rw [if_neg hretry, if_pos h]
    exact ⟨_, _, _, rfl⟩

/-- After an answer an error comes from the last two stages. -/
theorem Answered.failsAt_of_error {symbol : Symbol} {adapter : Adapter} {resp : Response}
    (hresp : Answered c job symbol adapter resp) {err : Err Fault}
    (h : (c.execute job).1 = .error (.error err)) : ∃ stage cause, FailsAt c job stage cause := by
  rw [hresp.execute] at h
  cases hresult : adapter.normalize job.dataType resp job symbol with
  | error stop =>
    cases stop with
    | error cause => exact ⟨_, cause, .normalize hresp hresult⟩
    | panic text =>
      rw [hresult] at h
      cases h
  | ok result =>
    cases hwrite : c.write job.dataType result job with
    | some cause => exact ⟨_, cause, .write hresp hresult hwrite⟩
    | none =>
      rw [hresult] at h
      dsimp only at h
      rw [hwrite] at h
      cases h

/-- **Where an error comes from**: a stage, or a check of `Execute` itself. -/
theorem execute_error_cases {err : Err Fault} (h : (c.execute job).1 = .error (.error err)) :
    (∃ stage cause, FailsAt c job stage cause ∧ err = stage.classify cause) ∨
      ∃ kind recoverable text, err = executionError kind recoverable (.new text) := by
  have hstage : ∀ {stage cause}, FailsAt c job stage cause →
      (∃ stage cause, FailsAt c job stage cause ∧ err = stage.classify cause) ∨
        ∃ kind recoverable text, err = executionError kind recoverable (.new text) := by
    intro stage cause hfails
    rw [execute_of_failsAt hfails] at h
    exact .inl ⟨stage, cause, hfails, (Stop.error.inj (Except.error.inj h)).symm⟩
  cases hsymbol : c.getSymbolByID job.symbolID with
  | error cause => exact hstage (.symbol hsymbol)
  | ok symbol =>
  by_cases hsource : job.sourceSymbol = ""
  · simp only [Collector.execute, hsymbol, if_pos hsource] at h
    exact .inr ⟨_, _, _, (Stop.error.inj (Except.error.inj h)).symm⟩
  cases hendpoint : c.endpointForJob job with
  | error cause => exact hstage (.endpoint hsymbol hsource hendpoint)
  | ok endpoint =>
  cases hadapter : c.adapters job.exchange with
  | error cause => exact hstage (.adapter hsymbol hsource hendpoint hadapter)
  | ok adapter =>
  have hfound : Found c job symbol endpoint adapter := ⟨hsymbol, hsource, hendpoint, hadapter⟩
  cases hreq : adapter.buildRequest endpoint job symbol with
  | error cause => exact hstage (.request hfound hreq)
  | ok req =>
  cases hresp : adapter.execute req with
  | error cause => exact hstage (.http hfound hreq hresp)
  | ok resp =>
  by_cases hstatus : resp.statusCode < 400
  · have hanswered : Answered c job symbol adapter resp :=
      ⟨⟨endpoint, req, hfound, hreq, hresp⟩, hstatus⟩
    obtain ⟨stage, cause, hfails⟩ := hanswered.failsAt_of_error h
    exact hstage hfails
  · obtain ⟨kind, recoverable, text, hrefused⟩ :=
      handleResponse_refused c adapter job symbol (not_lt.1 hstatus)
    rw [hfound.execute, hreq] at h
    dsimp only at h
    rw [hresp] at h
    dsimp only at h
    rw [hrefused] at h
    exact .inr ⟨kind, recoverable, text, (Stop.error.inj (Except.error.inj h)).symm⟩

/-! ## Transient errors -/

/-- `Execute` returns an `ExecutionError` that is recoverable. -/
def ReturnsRecoverable (c : Collector) (job : Job) : Prop :=
  ∃ err e, (c.execute job).1 = .error (.error err) ∧ (forWorker err).as = some e ∧
    e.recoverable = true

/-- The worker tries the job again if it has attempts left. -/
def Retries (c : Collector) (job : Job) : Prop :=
  ∃ err, (c.execute job).1 = .error (.error err) ∧ ∀ (db : DB) (nextRun now : ℤ),
    db.settle job nextRun now (.executed (some (forWorker err))) =
      if job.retryCount + 1 < job.maxRetry then db.retryJobLater job nextRun err.message now
      else db.markJobFailedDetailed job ⟨(classifyExecutionError (forWorker err)).1, err.message,
        (runtimeMetadataFromJob job).endpointID⟩ true now

theorem returnsRecoverable_of_execute {kind : FailureKind} {recoverable : Bool} {err : Err Fault}
    (h : (c.execute job).1 = .error (.error (executionError kind recoverable err))) :
    ReturnsRecoverable c job ↔ recoverable = true := by
  constructor
  · rintro ⟨err', e, herr, has, he⟩
    rw [h] at herr
    obtain rfl := Stop.error.inj (Except.error.inj herr)
    rw [forWorker_executionError] at has
    obtain rfl := Option.some.inj has
    exact he
  · intro hrec
    exact ⟨_, ⟨kind, recoverable⟩, h, rfl, hrec⟩

theorem ReturnsRecoverable.retries (h : ReturnsRecoverable c job) : Retries c job := by
  obtain ⟨err, e, herr, has, he⟩ := h
  refine ⟨err, herr, fun db nextRun now => ?_⟩
  have hclass : (classifyExecutionError (forWorker err)).2 = true := by
    rw [classifyExecutionError, has]
    exact he
  simp only [DB.settle, hclass, DB.retryOrDeadLetter, Bool.not_true, Bool.false_or]
  by_cases hleft : job.retryCount + 1 < job.maxRetry
  · rw [if_pos hleft, if_neg]
    · rfl
    · simpa using hleft
  · rw [if_neg hleft, if_pos]
    · rfl
    · simpa using hleft

/-- An error of a context or of the network is recoverable unless it is also one
    that the collector does not try again. -/
theorem classifyCollectorError_transient {err : Err Fault} (h : Transient err) :
    ∃ kind, classifyCollectorError err =
      executionError kind (err.isDeadlineExceeded || !isSentinel err) err := by
  unfold classifyCollectorError
  cases hdeadline : err.isDeadlineExceeded with
  | true => exact ⟨.timeout, rfl⟩
  | false =>
    cases hsentinel : isSentinel err with
    | true => exact ⟨.badRequest, rfl⟩
    | false =>
      refine ⟨failureKind (classifyError (some err)).type, ?_⟩
      simp only [h.recoverable]
      rfl

/-- **Transient errors**: an error of a context or of the network is returned as a
    recoverable one, and the job tried again while it has attempts left, exactly
    if it comes from the write or from a stage after the lookups; there, it must
    not also be one of an endpoint or a data type, unless a deadline has passed. -/
theorem transient_recoverable_iff {stage : Stage} {err : Err Fault} (hfails : FailsAt c job stage err)
    (htransient : Transient err) :
    (ReturnsRecoverable c job ∧ Retries c job) ↔
      ¬stage.Lookup ∧
        (stage = .write ∨ err.isDeadlineExceeded = true ∨ isSentinel err = false) := by
  have hexecute := execute_of_failsAt hfails
  have hboth : ReturnsRecoverable c job ∧ Retries c job ↔ ReturnsRecoverable c job :=
    and_iff_left_of_imp ReturnsRecoverable.retries
  obtain ⟨kind, hclass⟩ := classifyCollectorError_transient htransient
  rw [hboth]
  cases stage with
  | symbol | endpoint | adapter =>
    rw [returnsRecoverable_of_execute hexecute]
    simp [Stage.Lookup]
  | request | http | normalize =>
    rw [Stage.classify, hclass] at hexecute
    rw [returnsRecoverable_of_execute hexecute]
    simp [Stage.Lookup]
  | write =>
    rw [returnsRecoverable_of_execute hexecute]
    simp [Stage.Lookup]

end

/-! ### A slow network and a slow database -/

/-- A job that has failed never before, of three attempts. -/
def freshJob : Job :=
  .planned 1 "binance" "ticker" "all" 1 "BTCUSDT" "" 100 3 (.obj [("endpoint_id", .int 7)]) 0

/-- The connection to an exchange times out. -/
def requestTimeout : Err Fault :=
  .wrap "execute exchange request" ⟨"net/http: request canceled", [.custom (.net true)]⟩

/-- A collector whose database looks symbols up as given and whose requests time
    out. -/
def slowCollector (symbols : ℤ → Except (Err Fault) Symbol) : Collector where
  getByID id := .ok ⟨⟨id, "ticker", 1, 10000, 0, 0⟩, "binance", "usdt-futures", "ticker", true⟩
  resolveActive _ _ _ _ := .error (.new "endpoint unavailable")
  getSymbolByID := symbols
  adapters _ := .ok
    { buildRequest := fun _ _ _ => .ok ⟨"https://fapi.binance.com/ticker", "/ticker"⟩
      execute := fun _ => .error requestTimeout
      normalize := fun _ _ _ _ => .ok {} }
  write _ _ _ := none
  hasLogs := true
  hasHealth := true

theorem transient_recoverable_iff_timeout :
    FailsAt (slowCollector fun id => .ok ⟨id⟩) freshJob .http requestTimeout ∧
      Transient requestTimeout ∧ ReturnsRecoverable (slowCollector fun id => .ok ⟨id⟩) freshJob := by
  have htransient : Transient requestTimeout := by decide
  have hendpoint : 0 < (runtimeMetadataFromJob freshJob).endpointID := by decide +kernel
  have hfound : FailsAt (slowCollector fun id => .ok ⟨id⟩) freshJob .http requestTimeout :=
    .http ⟨rfl, by decide, Collector.endpointForJob_of_id hendpoint, rfl⟩ rfl rfl
  have hstage : ¬Stage.http.Lookup := by simp [Stage.Lookup]
  have hsentinel : isSentinel requestTimeout = false := by decide
  exact ⟨hfound, htransient,
    ((transient_recoverable_iff hfound htransient).2 ⟨hstage, .inr (.inr hsentinel)⟩).1⟩

/-- The query for a symbol, whose deadline passes. -/
def queryTimeout : Err Fault := .wrap "query symbols" .deadlineExceeded

theorem deadline_in_lookup :
    FailsAt (slowCollector fun _ => .error queryTimeout) freshJob .symbol queryTimeout ∧
      Transient queryTimeout ∧
      ¬ReturnsRecoverable (slowCollector fun _ => .error queryTimeout) freshJob ∧
      freshJob.retryCount + 1 < freshJob.maxRetry ∧
      ∃ err, ((slowCollector fun _ => .error queryTimeout).execute freshJob).1 = .error (.error err) ∧
        ∀ (db : DB) (nextRun now : ℤ),
          db.settle freshJob nextRun now (.executed (some (forWorker err))) =
            db.markJobFailedDetailed freshJob ⟨failureParse, queryTimeout.message, 7⟩ true now := by
  have hfails : FailsAt (slowCollector fun _ => .error queryTimeout) freshJob .symbol queryTimeout :=
    .symbol rfl
  have hexecute := execute_of_failsAt hfails
  have hendpoint : (runtimeMetadataFromJob freshJob).endpointID = 7 := by decide +kernel
  refine ⟨hfails, by decide, ?_, by decide, _, hexecute, fun db nextRun now => ?_⟩
  · rw [returnsRecoverable_of_execute hexecute]
    exact Bool.false_ne_true
  · rw [← hendpoint]
    rfl

end Aggregator.Collectors
