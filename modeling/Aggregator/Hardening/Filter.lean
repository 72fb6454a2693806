/-
  The quality gate in front of the repositories, for liquidations
  (`internal/hardening/validation.go`: `FilterNormalizedResult` on
  `LiquidationEvents` and `LiquidationAggregates`).

  An event without a key gets one derived from its content; `eventKey` stands for
  `LiquidationEventKey`.  A row that fails a check is dropped and reported.  The
  filter as a whole is in `Hardening.Result`.
-/
import Aggregator.Normalizers.Validation
import Aggregator.Scheduler.Models

namespace Aggregator.Hardening

open Aggregator.Go Aggregator.Normalizers Aggregator.Scheduler

structure ValidationConfig where
  maxFutureSkew : ℤ
  fundingMin : ℚ
  fundingMax : ℚ
deriving DecidableEq, Repr

def defaultValidationConfig : ValidationConfig := ⟨2 * minute, -1 / 20, 1 / 20⟩

/-- Why a row is dropped: its kind of issue and the error. -/
structure Rejection where
  issueType : String
  error : String
deriving DecidableEq, Repr

def validateSourceAndTime (source : SourceMeta) (time : ℤ) (job : Job) (now : ℤ)
    (cfg : ValidationConfig) : Except String Unit := do
  validateSource source
  let own := source.sourceSymbol
  let wanted := job.sourceSymbol
  if trimSpace wanted ≠ "" ∧ trimSpace own ≠ trimSpace wanted then
    .error s!"source_symbol {own.quote} does not match job source_symbol {wanted.quote}"
  if isZero time then .error "missing timestamp"
  let skew := if cfg.maxFutureSkew ≤ 0 then defaultValidationConfig.maxFutureSkew
    else cfg.maxFutureSkew
  if now + skew < time then
    let text := formatRFC3339 time
    .error s!"timestamp {text} is too far in the future"

def validateInterval (interval : String) (job : Job) : Except String Unit :=
  let period := job.period
  if trimSpace period = "" then .ok ()
  else if trimSpace interval ≠ trimSpace period then
    .error s!"interval {interval.quote} does not match job period {period.quote}"
  else .ok ()

/-- The rows that pass, in order, and the issues of the others. -/
def keepValid {ε α : Type} (check : α → Except ε Unit) (items : List α) : List α × List ε :=
  (items.filter fun item => (check item).isOk,
    items.filterMap fun item => match check item with
      | .error issue => some issue
      | .ok _ => none)

/-- The event with its key, derived if it has none. -/
def withEventKey (eventKey : NormalizedLiquidationEvent → String)
    (item : NormalizedLiquidationEvent) : NormalizedLiquidationEvent :=
  if trimSpace item.eventKey = "" then { item with eventKey := eventKey item } else item

def checkLiquidationEvent (job : Job) (now : ℤ) (cfg : ValidationConfig)
    (item : NormalizedLiquidationEvent) : Except Rejection Unit := do
  (validateSourceAndTime item.toSourceMeta item.eventTime job now cfg).mapError
    (Rejection.mk "liquidation_event_invalid")
  (validateLiquidationEvent item).mapError (Rejection.mk "liquidation_event_invalid")

def checkLiquidationAggregate (job : Job) (now : ℤ) (cfg : ValidationConfig)
    (item : NormalizedLiquidationAggregate) : Except Rejection Unit := do
  (validateSourceAndTime item.toSourceMeta item.bucketTime job now cfg).mapError
    (Rejection.mk "liquidation_aggregate_invalid")
  (validateInterval item.period job).mapError (Rejection.mk "interval_mismatch")
  (validateLiquidationAggregate item).mapError (Rejection.mk "liquidation_aggregate_invalid")

def filterLiquidationEvents (eventKey : NormalizedLiquidationEvent → String) (job : Job) (now : ℤ)
    (cfg : ValidationConfig) (items : List NormalizedLiquidationEvent) :
    List NormalizedLiquidationEvent × List Rejection :=
  keepValid (checkLiquidationEvent job now cfg) (items.map (withEventKey eventKey))

def filterLiquidationAggregates (job : Job) (now : ℤ) (cfg : ValidationConfig)
    (items : List NormalizedLiquidationAggregate) :
    List NormalizedLiquidationAggregate × List Rejection :=
  keepValid (checkLiquidationAggregate job now cfg) items

/-! ## What is kept -/

theorem mem_keepValid {ε α : Type} {check : α → Except ε Unit} {items : List α} {item : α} :
    item ∈ (keepValid check items).1 ↔ item ∈ items ∧ check item = .ok () := by
  rw [keepValid, List.mem_filter, isOk_iff]

/-- How far in the future a row may be. -/
def futureSkew (cfg : ValidationConfig) : ℤ :=
  if cfg.maxFutureSkew ≤ 0 then defaultValidationConfig.maxFutureSkew else cfg.maxFutureSkew

theorem validateSourceAndTime_iff {source : SourceMeta} {time : ℤ} {job : Job} {now : ℤ}
    {cfg : ValidationConfig} :
    validateSourceAndTime source time job now cfg = .ok () ↔
      validateSource source = .ok () ∧
      (trimSpace job.sourceSymbol ≠ "" → trimSpace source.sourceSymbol = trimSpace job.sourceSymbol) ∧
      time ≠ 0 ∧ time ≤ now + futureSkew cfg := by
  unfold validateSourceAndTime
  rw [check_eq_ok, guard_eq_ok, guard_eq_ok]
  refine and_congr_right fun _ => and_congr ?_ (and_congr ?_ ?_)
  · rw [not_and, not_not]
  · simp [isZero]
  · exact ite_eq_ok.trans not_lt

theorem checkLiquidationEvent_iff {job : Job} {now : ℤ} {cfg : ValidationConfig}
    {item : NormalizedLiquidationEvent} :
    checkLiquidationEvent job now cfg item = .ok () ↔
      validateSourceAndTime item.toSourceMeta item.eventTime job now cfg = .ok () ∧
        validateLiquidationEvent item = .ok () := by
  rw [checkLiquidationEvent, check_eq_ok, mapError_eq_ok, mapError_eq_ok]

theorem checkLiquidationAggregate_iff {job : Job} {now : ℤ} {cfg : ValidationConfig}
    {item : NormalizedLiquidationAggregate} :
    checkLiquidationAggregate job now cfg item = .ok () ↔
      validateSourceAndTime item.toSourceMeta item.bucketTime job now cfg = .ok () ∧
        validateInterval item.period job = .ok () ∧ validateLiquidationAggregate item = .ok () := by
  rw [checkLiquidationAggregate, check_eq_ok, check_eq_ok, mapError_eq_ok, mapError_eq_ok,
    mapError_eq_ok]

/-- A kept event passes the check of the repository. -/
theorem validate_of_mem_filter {eventKey : NormalizedLiquidationEvent → String} {job : Job}
    {now : ℤ} {cfg : ValidationConfig} {items : List NormalizedLiquidationEvent}
    {item : NormalizedLiquidationEvent}
    (h : item ∈ (filterLiquidationEvents eventKey job now cfg items).1) :
    validateLiquidationEvent item = .ok () :=
  (checkLiquidationEvent_iff.1 (mem_keepValid.1 h).2).2

end Aggregator.Hardening
