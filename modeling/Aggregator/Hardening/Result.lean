/-
  The quality gate on a whole result (`internal/hardening/validation.go`:
  `FilterNormalizedResult`, `qualityIssue`).

  The filter runs one loop for each of the thirteen kinds of rows.  A loop checks
  the source and the time of a row, then the interval or the funding rate where
  the kind has one, and then the row as the repository will; the first check that
  fails drops the row and reports it.  `RowKind` names the kinds in the order of
  the loops.

  * `RowKind.sifts_loop`: a loop keeps or reports each row, once and in order;
  * `RowKind.loop_of_check`: a loop keeps rows that pass, as they are;
  * `filterNormalizedResult_partitions`: both for the whole result, and what is
    kept passes the checks of the repositories.
-/
import Aggregator.Go.Sha1
import Aggregator.Hardening.Filter
import Aggregator.Lib.Sift
import Aggregator.Normalizers.Market
import Mathlib.Algebra.BigOperators.Group.List.Basic

namespace Aggregator.Hardening

open Aggregator.Go Aggregator.Normalizers Aggregator.Scheduler

/-- The configuration with the defaults for what is not set. -/
def ValidationConfig.withDefaults (cfg : ValidationConfig) : ValidationConfig :=
  let cfg := if cfg.maxFutureSkew ≤ 0 then
    { cfg with maxFutureSkew := defaultValidationConfig.maxFutureSkew } else cfg
  if cfg.fundingMin = 0 ∧ cfg.fundingMax = 0 then
    { cfg with
      fundingMin := defaultValidationConfig.fundingMin
      fundingMax := defaultValidationConfig.fundingMax }
  else cfg

def validateFunding (value : ℚ) (cfg : ValidationConfig) : Except String Unit :=
  let low := cfg.fundingMin
  let high := cfg.fundingMax
  if value < low ∨ high < value then
    .error s!"funding rate {formatF value} outside sanity bounds [{formatF low},{formatF high}]"
  else .ok ()

def validateFundingOptional (value : Option ℚ) (cfg : ValidationConfig) : Except String Unit :=
  match value with
  | none => .ok ()
  | some value => validateFunding value cfg

/-! ## The loops -/

inductive RowKind where
  | marketSnapshots
  | klines
  | openInterest
  | fundingSnapshots
  | fundingHistory
  | takerFlows
  | cvdSnapshots
  | liquidationEvents
  | liquidationAggregates
  | longShortRatios
  | basisPremiums
  | orderbookImbalances
  | exchangeDivergences
deriving DecidableEq, Repr

namespace RowKind

/-- The kinds, in the order of the loops. -/
def all : List RowKind :=
  [marketSnapshots, klines, openInterest, fundingSnapshots, fundingHistory, takerFlows,
    cvdSnapshots, liquidationEvents, liquidationAggregates, longShortRatios, basisPremiums,
    orderbookImbalances, exchangeDivergences]

abbrev Row : RowKind → Type
  | marketSnapshots => NormalizedMarketSnapshot
  | klines => NormalizedKline
  | openInterest => NormalizedOpenInterest
  | fundingSnapshots => NormalizedFundingSnapshot
  | fundingHistory => NormalizedFundingHistory
  | takerFlows => NormalizedTakerFlow
  | cvdSnapshots => NormalizedCVD
  | liquidationEvents => NormalizedLiquidationEvent
  | liquidationAggregates => NormalizedLiquidationAggregate
  | longShortRatios => NormalizedLongShortRatio
  | basisPremiums => NormalizedBasisPremium
  | orderbookImbalances => NormalizedOrderbookImbalance
  | exchangeDivergences => NormalizedExchangeDivergence

def rows (result : NormalizedResult) : (kind : RowKind) → List kind.Row
  | marketSnapshots => result.marketSnapshots
  | klines => result.klines
  | openInterest => result.openInterest
  | fundingSnapshots => result.fundingSnapshots
  | fundingHistory => result.fundingHistory
  | takerFlows => result.takerFlows
  | cvdSnapshots => result.cvdSnapshots
  | liquidationEvents => result.liquidationEvents
  | liquidationAggregates => result.liquidationAggregates
  | longShortRatios => result.longShortRatios
  | basisPremiums => result.basisPremiums
  | orderbookImbalances => result.orderbookImbalances
  | exchangeDivergences => result.exchangeDivergences

def source : (kind : RowKind) → kind.Row → SourceMeta
  | marketSnapshots, row => row.toSourceMeta
  | klines, row => row.toSourceMeta
  | openInterest, row => row.toSourceMeta
  | fundingSnapshots, row => row.toSourceMeta
  | fundingHistory, row => row.toSourceMeta
  | takerFlows, row => row.toSourceMeta
  | cvdSnapshots, row => row.toSourceMeta
  | liquidationEvents, row => row.toSourceMeta
  | liquidationAggregates, row => row.toSourceMeta
  | longShortRatios, row => row.toSourceMeta
  | basisPremiums, row => row.toSourceMeta
  | orderbookImbalances, row => row.toSourceMeta
  | exchangeDivergences, row => row.toSourceMeta

/-- The time of a row that must not be too far in the future. -/
def time : (kind : RowKind) → kind.Row → ℤ
  | marketSnapshots, row => row.snapshotTime
  | klines, row => row.openTime
  | openInterest, row => row.snapshotTime
  | fundingSnapshots, row => row.snapshotTime
  | fundingHistory, row => row.fundingTime
  | takerFlows, row => row.snapshotTime
  | cvdSnapshots, row => row.snapshotTime
  | liquidationEvents, row => row.eventTime
  | liquidationAggregates, row => row.bucketTime
  | longShortRatios, row => row.snapshotTime
  | basisPremiums, row => row.snapshotTime
  | orderbookImbalances, row => row.snapshotTime
  | exchangeDivergences, row => row.snapshotTime

/-- The kind of issue of a row that is not valid. -/
def issueType : RowKind → String
  | marketSnapshots => "market_snapshot_invalid"
  | klines => "kline_invalid"
  | openInterest => "open_interest_invalid"
  | fundingSnapshots => "funding_invalid"
  | fundingHistory => "funding_history_invalid"
  | takerFlows => "taker_flow_invalid"
  | cvdSnapshots => "cvd_invalid"
  | liquidationEvents => "liquidation_event_invalid"
  | liquidationAggregates => "liquidation_aggregate_invalid"
  | longShortRatios => "long_short_ratio_invalid"
  | basisPremiums => "basis_invalid"
  | orderbookImbalances => "orderbook_imbalance_invalid"
  | exchangeDivergences => "exchange_divergence_invalid"

/-- The second check of a loop: the interval of a row against the period of the
    job, or its funding rate against the sanity bounds. -/
def secondCheck (job : Job) (cfg : ValidationConfig) :
    (kind : RowKind) → kind.Row → Except Rejection Unit
  | marketSnapshots, row => funding (validateFundingOptional row.fundingRate cfg)
  | klines, row => interval (validateInterval row.interval job)
  | openInterest, _ => .ok ()
  | fundingSnapshots, row => funding (validateFunding row.fundingRate cfg)
  | fundingHistory, row => funding (validateFunding row.fundingRate cfg)
  | takerFlows, row => interval (validateInterval row.period job)
  | cvdSnapshots, row => interval (validateInterval row.period job)
  | liquidationEvents, _ => .ok ()
  | liquidationAggregates, row => interval (validateInterval row.period job)
  | longShortRatios, row => interval (validateInterval row.period job)
  | basisPremiums, row => funding (validateFundingOptional row.fundingRate cfg)
  | orderbookImbalances, _ => .ok ()
  | exchangeDivergences, _ => .ok ()
where
  interval (m : Except String Unit) := m.mapError (Rejection.mk "interval_mismatch")
  funding (m : Except String Unit) := m.mapError (Rejection.mk "funding_out_of_range")

/-- The check the repository of a kind repeats before it writes a row; open
    interest goes to `UpsertHistory` or to `UpsertSnapshots` by the data type. -/
def validate (dataType : String) : (kind : RowKind) → kind.Row → Except String Unit
  | marketSnapshots, row => validateMarketSnapshot row
  | klines, row => validateKline row
  | openInterest, row => validateOpenInterest row (dataType = "open_interest_history")
  | fundingSnapshots, row => validateFundingSnapshot row
  | fundingHistory, row => validateFundingHistory row
  | takerFlows, row => validateTakerFlow row
  | cvdSnapshots, row => validateCVD row
  | liquidationEvents, row => validateLiquidationEvent row
  | liquidationAggregates, row => validateLiquidationAggregate row
  | longShortRatios, row => validateLongShortRatio row
  | basisPremiums, row => validateBasisPremium row
  | orderbookImbalances, row => validateOrderbookImbalance row
  | exchangeDivergences, row => validateExchangeDivergence row

/-- What a loop does to a row before the checks: a liquidation event gets its key. -/
def prepare (eventKey : NormalizedLiquidationEvent → String) : (kind : RowKind) → kind.Row → kind.Row
  | liquidationEvents, row => withEventKey eventKey row
  | _, row => row

end RowKind

structure QualityIssue where
  issueKey : String
  severity : String
  exchange : String
  dataType : String
  symbolID : ℤ
  sourceSymbol : String
  issueType : String
  details : Json
  observedAt : ℤ
  jobID : ℤ
  endpointID : ℤ

def qualityIssue (dataType : String) (rejection : Rejection) (source : SourceMeta) (job : Job)
    (now : ℤ) : QualityIssue where
  issueKey :=
    let seed := "|".intercalate [rejection.issueType, source.exchange, toString source.symbolID,
      source.sourceSymbol, dataType, rejection.error]
    (Sha1.sum seed.toUTF8.toList).hex
  severity := "warning"
  exchange := toLower (trimSpace source.exchange)
  dataType := dataType
  symbolID := source.symbolID
  sourceSymbol := trimSpace source.sourceSymbol
  issueType := rejection.issueType
  details := .obj [("error", .str rejection.error), ("idempotency_key", .str job.idempotencyKey),
    ("job_id", .int job.id)]
  observedAt := now
  jobID := job.id
  endpointID := (runtimeMetadataFromJob job).endpointID

/-! ## The filter -/

section
variable (eventKey : NormalizedLiquidationEvent → String) (dataType : String) (job : Job) (now : ℤ)
  (cfg : ValidationConfig)

namespace RowKind

/-- The checks of a loop, in order. -/
def check (kind : RowKind) (row : kind.Row) : Except Rejection Unit := do
  (validateSourceAndTime (kind.source row) (kind.time row) job now cfg).mapError
    (Rejection.mk kind.issueType)
  kind.secondCheck job cfg row
  (kind.validate dataType row).mapError (Rejection.mk kind.issueType)

/-- One loop: the rows it keeps and the issues of the others. -/
def loop (kind : RowKind) (rows : List kind.Row) : List kind.Row × List QualityIssue :=
  keepValid
    (fun row => (kind.check dataType job now cfg row).mapError fun rejection =>
      qualityIssue dataType rejection (kind.source row) job now)
    (rows.map (kind.prepare eventKey))

end RowKind

end

/-- `clock` is what `time.Now` returns, for a call without a time. -/
def filterNormalizedResult (eventKey : NormalizedLiquidationEvent → String) (clock : ℤ)
    (dataType : String) (result : NormalizedResult) (job : Job) (now : ℤ) (cfg : ValidationConfig) :
    NormalizedResult × List QualityIssue :=
  let cfg := cfg.withDefaults
  let now := if isZero now then clock else now
  let loop (kind : RowKind) := kind.loop eventKey dataType job now cfg (kind.rows result)
  ({  marketSnapshots := (loop .marketSnapshots).1
      klines := (loop .klines).1
      openInterest := (loop .openInterest).1
      fundingSnapshots := (loop .fundingSnapshots).1
      fundingHistory := (loop .fundingHistory).1
      longShortRatios := (loop .longShortRatios).1
      takerFlows := (loop .takerFlows).1
      cvdSnapshots := (loop .cvdSnapshots).1
      liquidationEvents := (loop .liquidationEvents).1
      liquidationAggregates := (loop .liquidationAggregates).1
      basisPremiums := (loop .basisPremiums).1
      orderbookImbalances := (loop .orderbookImbalances).1
      exchangeDivergences := (loop .exchangeDivergences).1 },
    RowKind.all.flatMap fun kind => (loop kind).2)

/-! ## What a loop does -/

theorem sifts_keepValid {ε α : Type} (check : α → Except ε Unit) (items : List α) :
    Sifts (fun item kept => kept = item ∧ check item = .ok ())
      (fun item issue => check item = .error issue) items
      (keepValid check items).1 (keepValid check items).2 := by
  induction items with
  | nil => exact .nil
  | cons item items ih =>
    cases h : check item with
    | ok u =>
      have hcons : keepValid check (item :: items) =
          (item :: (keepValid check items).1, (keepValid check items).2) := by
        simp [keepValid, h, Except.isOk, Except.toBool]
      rw [hcons]
      exact .kept ⟨rfl, h⟩ ih
    | error issue =>
      have hcons : keepValid check (item :: items) =
          ((keepValid check items).1, issue :: (keepValid check items).2) := by
        simp [keepValid, h, Except.isOk, Except.toBool]
      rw [hcons]
      exact .reported h ih

theorem keepValid_of_forall {ε α : Type} {check : α → Except ε Unit} {items : List α}
    (h : ∀ item ∈ items, check item = .ok ()) : keepValid check items = (items, []) := by
  refine Prod.ext (List.filter_eq_self.2 fun item hitem => isOk_iff.2 (h item hitem))
    (List.filterMap_eq_nil_iff.2 fun item hitem => ?_)
  rw [h item hitem]

section
variable {eventKey : NormalizedLiquidationEvent → String} {dataType : String} {job : Job} {now : ℤ}
  {cfg : ValidationConfig} {kind : RowKind}

namespace RowKind

theorem check_iff {row : kind.Row} :
    kind.check dataType job now cfg row = .ok () ↔
      validateSourceAndTime (kind.source row) (kind.time row) job now cfg = .ok () ∧
        kind.secondCheck job cfg row = .ok () ∧ kind.validate dataType row = .ok () := by
  rw [check, check_eq_ok, mapError_eq_ok, check_eq_ok, mapError_eq_ok]

theorem source_prepare (row : kind.Row) : kind.source (kind.prepare eventKey row) = kind.source row := by
  cases kind with
  | liquidationEvents =>
    show (withEventKey eventKey row).toSourceMeta = row.toSourceMeta
    rw [withEventKey]
    split <;> rfl
  | _ => rfl

/-- A row that passes has nothing left to prepare: the check of a liquidation
    event asks for a key. -/
theorem prepare_of_check {row : kind.Row} (h : kind.check dataType job now cfg row = .ok ()) :
    kind.prepare eventKey row = row := by
  have hvalid := (check_iff.1 h).2.2
  cases kind with
  | liquidationEvents => exact if_neg (validateLiquidationEvent_iff.1 hvalid).2.1
  | _ => rfl

variable (eventKey dataType job now cfg) in
/-- A loop keeps a row as it is prepared if it passes, and reports it otherwise. -/
theorem sifts_loop (rows : List kind.Row) :
    Sifts
      (fun row kept => kept = kind.prepare eventKey row ∧
        kind.check dataType job now cfg kept = .ok ())
      (fun row issue => ∃ rejection,
        kind.check dataType job now cfg (kind.prepare eventKey row) = .error rejection ∧
          issue = qualityIssue dataType rejection (kind.source row) job now)
      rows (kind.loop eventKey dataType job now cfg rows).1
      (kind.loop eventKey dataType job now cfg rows).2 := by
  refine (sifts_keepValid _ _).of_map.imp ?_ ?_
  · rintro row _ ⟨rfl, h⟩
    exact ⟨rfl, mapError_eq_ok.1 h⟩
  · intro row issue h
    obtain ⟨rejection, hcheck, rfl⟩ := mapError_eq_error.1 h
    rw [source_prepare]
    exact ⟨rejection, hcheck, rfl⟩

theorem check_of_mem_loop {rows : List kind.Row} {row : kind.Row}
    (h : row ∈ (kind.loop eventKey dataType job now cfg rows).1) :
    kind.check dataType job now cfg row = .ok () :=
  mapError_eq_ok.1 (mem_keepValid.1 h).2

theorem loop_of_check {rows : List kind.Row}
    (h : ∀ row ∈ rows, kind.check dataType job now cfg row = .ok ()) :
    kind.loop eventKey dataType job now cfg rows = (rows, []) := by
  have hprepare : rows.map (kind.prepare eventKey) = rows :=
    (List.map_congr_left fun row hrow => prepare_of_check (h row hrow)).trans (List.map_id _)
  rw [loop, hprepare]
  exact keepValid_of_forall fun row hrow => mapError_eq_ok.2 (h row hrow)

end RowKind

end

/-! ## The whole result -/

/-- The rows of all kinds. -/
def rowCount (result : NormalizedResult) : ℕ :=
  (RowKind.all.map fun kind => (kind.rows result).length).sum

theorem eq_of_rows {a b : NormalizedResult} (h : ∀ kind : RowKind, kind.rows a = kind.rows b) :
    a = b := by
  cases a
  cases b
  rw [NormalizedResult.mk.injEq]
  exact ⟨h .marketSnapshots, h .klines, h .openInterest, h .fundingSnapshots, h .fundingHistory,
    h .longShortRatios, h .takerFlows, h .cvdSnapshots, h .liquidationEvents,
    h .liquidationAggregates, h .basisPremiums, h .orderbookImbalances, h .exchangeDivergences⟩

section
variable (eventKey : NormalizedLiquidationEvent → String) (dataType : String) (job : Job) {now : ℤ}
  (cfg : ValidationConfig)

theorem filterNormalizedResult_loops (hnow : now ≠ 0) (clock : ℤ) (result : NormalizedResult) :
    (∀ kind : RowKind,
      kind.rows (filterNormalizedResult eventKey clock dataType result job now cfg).1 =
        (kind.loop eventKey dataType job now cfg.withDefaults (kind.rows result)).1) ∧
    (filterNormalizedResult eventKey clock dataType result job now cfg).2 =
      RowKind.all.flatMap fun kind =>
        (kind.loop eventKey dataType job now cfg.withDefaults (kind.rows result)).2 := by
  have hclock : (if isZero now then clock else now) = now := if_neg (by simpa [isZero] using hnow)
  rw [filterNormalizedResult, hclock]
  refine ⟨fun kind => ?_, rfl⟩
  cases kind <;> rfl

/-- What the gate makes of the rows of one kind: each is kept, as prepared, if it
    passes, and reported by one issue if it does not. -/
structure Partitions (now : ℤ) (kind : RowKind) (rows kept : List kind.Row)
    (issues : List QualityIssue) : Prop where
  sifts : Sifts
    (fun row out => out = kind.prepare eventKey row ∧
      kind.check dataType job now cfg.withDefaults out = .ok ())
    (fun row issue => ∃ rejection,
      kind.check dataType job now cfg.withDefaults (kind.prepare eventKey row) = .error rejection ∧
        issue = qualityIssue dataType rejection (kind.source row) job now)
    rows kept issues
  sublist : kept.Sublist (rows.map (kind.prepare eventKey))
  count : kept.length + issues.length = rows.length

theorem partitions_loop (now : ℤ) (kind : RowKind) (rows : List kind.Row) :
    Partitions eventKey dataType job cfg now kind rows
      (kind.loop eventKey dataType job now cfg.withDefaults rows).1
      (kind.loop eventKey dataType job now cfg.withDefaults rows).2 :=
  have hsifts := RowKind.sifts_loop eventKey dataType job now cfg.withDefaults rows
  ⟨hsifts, hsifts.sublist fun _ _ h => h.1, hsifts.length_add⟩

/-! The liquidations that `filterLiquidationEvents` and `filterLiquidationAggregates`
keep are those of the whole filter. -/

theorem validateSourceAndTime_withDefaults (source : SourceMeta) (time now : ℤ) :
    validateSourceAndTime source time job now cfg.withDefaults = .ok () ↔
      validateSourceAndTime source time job now cfg = .ok () := by
  have hmax : cfg.withDefaults.maxFutureSkew = futureSkew cfg := by
    by_cases hskew : cfg.maxFutureSkew ≤ 0 <;>
      simp only [ValidationConfig.withDefaults, futureSkew, hskew, if_true, if_false] <;>
      split <;> rfl
  have hpos : 0 < futureSkew cfg := by
    unfold futureSkew
    split
    · decide
    · omega
  have hskew : futureSkew cfg.withDefaults = futureSkew cfg := by
    rw [futureSkew, hmax, if_neg hpos.not_ge]
  rw [validateSourceAndTime_iff, validateSourceAndTime_iff, hskew]

theorem keepValid_fst_congr {ε ε' α : Type} {check : α → Except ε Unit} {check' : α → Except ε' Unit}
    (h : ∀ item, check item = .ok () ↔ check' item = .ok ()) (items : List α) :
    (keepValid check items).1 = (keepValid check' items).1 := by
  refine List.filter_congr fun item _ => Bool.eq_iff_iff.2 ?_
  rw [isOk_iff, isOk_iff]
  exact h item

theorem liquidationEvents_filter (hnow : now ≠ 0) (clock : ℤ) (result : NormalizedResult) :
    (filterNormalizedResult eventKey clock dataType result job now cfg).1.liquidationEvents =
      (filterLiquidationEvents eventKey job now cfg result.liquidationEvents).1 := by
  refine ((filterNormalizedResult_loops eventKey dataType job cfg hnow clock result).1
    .liquidationEvents).trans (keepValid_fst_congr (fun row => ?_) _)
  rw [mapError_eq_ok, RowKind.check_iff, validateSourceAndTime_withDefaults,
    checkLiquidationEvent_iff]
  exact and_congr_right fun _ => and_iff_right rfl

theorem liquidationAggregates_filter (hnow : now ≠ 0) (clock : ℤ) (result : NormalizedResult) :
    (filterNormalizedResult eventKey clock dataType result job now cfg).1.liquidationAggregates =
      (filterLiquidationAggregates job now cfg result.liquidationAggregates).1 := by
  refine ((filterNormalizedResult_loops eventKey dataType job cfg hnow clock result).1
    .liquidationAggregates).trans ?_
  have hprepare : result.liquidationAggregates.map (RowKind.prepare eventKey .liquidationAggregates) =
      result.liquidationAggregates := List.map_id _
  rw [RowKind.loop, RowKind.rows, hprepare]
  refine keepValid_fst_congr (fun row => ?_) _
  rw [mapError_eq_ok, RowKind.check_iff, validateSourceAndTime_withDefaults,
    checkLiquidationAggregate_iff]
  exact and_congr_right fun _ => and_congr_left fun _ => mapError_eq_ok

theorem rowCount_add {result kept : NormalizedResult} {issuesOf : RowKind → List QualityIssue}
    (h : ∀ kind : RowKind,
      (kind.rows kept).length + (issuesOf kind).length = (kind.rows result).length) :
    rowCount kept + (RowKind.all.flatMap issuesOf).length = rowCount result := by
  rw [rowCount, rowCount, List.length_flatMap, ← List.sum_map_add]
  exact congrArg List.sum (List.map_congr_left fun kind _ => h kind)

/-- The gate partitions the rows of every kind into those it keeps and those it
    reports, what it keeps passes the checks of the repositories, and it keeps all
    of that when it runs again. -/
theorem filterNormalizedResult_partitions (hnow : now ≠ 0) (clock : ℤ) (result : NormalizedResult) :
    let kept := (filterNormalizedResult eventKey clock dataType result job now cfg).1
    let issues := (filterNormalizedResult eventKey clock dataType result job now cfg).2
    (∃ issuesOf : RowKind → List QualityIssue, issues = RowKind.all.flatMap issuesOf ∧
      ∀ kind : RowKind, Partitions eventKey dataType job cfg now kind (kind.rows result)
        (kind.rows kept) (issuesOf kind)) ∧
    rowCount kept + issues.length = rowCount result ∧
    (∀ kind : RowKind, ∀ row ∈ kind.rows kept, kind.validate dataType row = .ok ()) ∧
    ∀ clock', filterNormalizedResult eventKey clock' dataType kept job now cfg = (kept, []) := by
  intro kept issues
  obtain ⟨hkept, hissues⟩ :=
    filterNormalizedResult_loops eventKey dataType job cfg hnow clock result
  have hpart (kind : RowKind) :=
    partitions_loop eventKey dataType job cfg now kind (kind.rows result)
  have hcheck : ∀ kind : RowKind, ∀ row ∈ kind.rows kept,
      kind.check dataType job now cfg.withDefaults row = .ok () := by
    intro kind row hrow
    rw [hkept] at hrow
    exact RowKind.check_of_mem_loop hrow
  refine ⟨⟨_, hissues, fun kind => ?_⟩, ?_, fun kind row hrow => ?_, fun clock' => ?_⟩
  · rw [hkept]
    exact hpart kind
  · rw [show issues = _ from hissues]
    refine rowCount_add fun kind => ?_
    rw [hkept]
    exact (hpart kind).count
  · exact (RowKind.check_iff.1 (hcheck kind row hrow)).2.2
  · -- every loop finds only rows that pass
    obtain ⟨hkept', hissues'⟩ :=
      filterNormalizedResult_loops eventKey dataType job cfg hnow clock' kept
    refine Prod.ext (eq_of_rows fun kind => ?_) ?_
    · rw [hkept', RowKind.loop_of_check (hcheck kind)]
    · rw [hissues', List.flatMap_eq_nil_iff]
      intro kind _
      rw [RowKind.loop_of_check (hcheck kind)]

end

/-- The time of the examples. -/
def noon : ℤ := unixSeconds 1779710400

def bitcoin : SourceMeta := ⟨1, "binance", "BTCUSDT"⟩

/-- Two funding rates, one of them out of range, a candle of another interval, and
    two liquidations without a key, one of them without a side. -/
def mixedResult : NormalizedResult where
  klines := [⟨bitcoin, "1h", noon, noon + hour, 1, 1, 1, 1, none, none, none, none, none, true⟩]
  fundingSnapshots :=
    [⟨bitcoin, noon, 1 / 4, 0, none, none⟩, ⟨bitcoin, noon, 1 / 100, 0, none, none⟩]
  liquidationEvents :=
    [⟨bitcoin, " ", noon, "buy", some 100, some 2, none, none, "", ""⟩,
     ⟨bitcoin, "", noon, "", some 100, some 2, none, none, "", ""⟩]

/-- The candle's job is of another period. -/
def mixedJob : Job := { Job.sample 7 "ticker" 3 noon with period := "5m" }

theorem filterNormalizedResult_partitions_mixed :
    let filter := fun result => filterNormalizedResult (fun _ => "liq:1") 0 "ticker" result
      mixedJob noon ⟨minute, 0, 0⟩
    noon ≠ 0 ∧ rowCount mixedResult = 5 ∧ rowCount (filter mixedResult).1 = 2 ∧
      (filter mixedResult).2.length = 3 ∧
      (filter mixedResult).1.liquidationEvents.map (·.eventKey) = ["liq:1"] ∧
      filter (filter mixedResult).1 = ((filter mixedResult).1, []) := by
  intro filter
  have hnow : noon ≠ 0 := by decide
  obtain ⟨-, hcount, -, hagain⟩ := filterNormalizedResult_partitions (fun _ => "liq:1") "ticker"
    mixedJob ⟨minute, 0, 0⟩ hnow 0 mixedResult
  have hrows : rowCount mixedResult = 5 := by decide
  have hkept : rowCount (filter mixedResult).1 = 2 := by decide +kernel
  refine ⟨hnow, hrows, hkept, ?_, by decide +kernel, hagain 0⟩
  rw [hrows, show rowCount _ = 2 from hkept] at hcount
  exact Nat.add_left_cancel hcount

end Aggregator.Hardening
