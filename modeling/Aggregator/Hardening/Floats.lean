/-
  The quality gate over `float64` values (`internal/hardening/validation.go`:
  `FilterNormalizedResult`, and the checks of `internal/normalizers/validation.go`
  it calls), for the kinds of rows that hold a funding rate, and for klines and
  open interest.

  The checks compare: a value is rejected if it is below a lower bound or above
  an upper one.  `Hardening.Result` has the same loops over rationals; here a
  value may also be NaN or infinite, as `strconv.ParseFloat` reads `"NaN"` and
  `"Inf"` without an error.

  * `Kind.loop_ofRow`: on rational rows the loops are those of `Hardening.Result`;
  * `Kind.rates_of_check`, `Kind.amounts_of_check`: what the checks leave of the
    rates and amounts of a row;
  * `filter_sane_iff`: when the kept rates and amounts are what the gate is for.
-/
import Aggregator.Go.Float64
import Aggregator.Hardening.Result
import Mathlib.Data.List.ReduceOption

namespace Aggregator.Hardening.Floats

open Aggregator.Go Aggregator.Normalizers Aggregator.Scheduler

/-! ## Rows -/

structure MarketSnapshot extends SourceMeta where
  snapshotTime : ℤ
  lastPrice : Option Float64
  markPrice : Option Float64
  indexPrice : Option Float64
  bidPrice : Option Float64
  askPrice : Option Float64
  volume24h : Option Float64
  quoteVolume24h : Option Float64
  priceChangePercent24h : Option Float64
  openInterest : Option Float64
  fundingRate : Option Float64
deriving DecidableEq, Repr

structure Kline extends SourceMeta where
  interval : String
  openTime : ℤ
  closeTime : ℤ
  openPrice : Float64
  highPrice : Float64
  lowPrice : Float64
  closePrice : Float64
  volume : Option Float64
  quoteVolume : Option Float64
  tradeCount : Option ℤ
  takerBuyVolume : Option Float64
  takerBuyQuoteVolume : Option Float64
  isClosed : Bool
deriving DecidableEq, Repr

structure OpenInterest extends SourceMeta where
  snapshotTime : ℤ
  period : String
  openInterest : Float64
  openInterestValue : Option Float64
deriving DecidableEq, Repr

structure FundingSnapshot extends SourceMeta where
  snapshotTime : ℤ
  fundingRate : Float64
  nextFundingTime : ℤ
  markPrice : Option Float64
  indexPrice : Option Float64
deriving DecidableEq, Repr

structure FundingHistory extends SourceMeta where
  fundingTime : ℤ
  fundingRate : Float64
  realizedRate : Option Float64
  markPrice : Option Float64
deriving DecidableEq, Repr

structure BasisPremium extends SourceMeta where
  snapshotTime : ℤ
  futuresPrice : Option Float64
  markPrice : Option Float64
  indexPrice : Option Float64
  spotPrice : Option Float64
  basis : Option Float64
  basisPercent : Option Float64
  annualizedBasisPercent : Option Float64
  basisValue : Option Float64
  premiumIndex : Option Float64
  fundingRate : Option Float64
deriving DecidableEq, Repr

/-- Of a divergence, the fields that are checked and the rates. -/
structure ExchangeDivergence extends SourceMeta where
  dataType : String
  snapshotTime : ℤ
  fundingMin : Option Float64
  fundingMax : Option Float64
deriving DecidableEq, Repr

structure Result where
  marketSnapshots : List MarketSnapshot := []
  klines : List Kline := []
  openInterest : List OpenInterest := []
  fundingSnapshots : List FundingSnapshot := []
  fundingHistory : List FundingHistory := []
  basisPremiums : List BasisPremium := []
  exchangeDivergences : List ExchangeDivergence := []
deriving DecidableEq, Repr

/-! ## Checks -/

def validateNonNegative (name : String) (value : Float64) : Except String Unit :=
  if value < .fin 0 then .error s!"{name} must be non-negative" else .ok ()

def validateOptionalNonNegative (name : String) (value : Option Float64) : Except String Unit :=
  match value with
  | none => .ok ()
  | some value => validateNonNegative name value

/-- The loop over a map of optional values. -/
def validateOptionals (checks : List (String × Option Float64)) : Except String Unit :=
  checks.forM fun (name, value) => validateOptionalNonNegative name value

def validateFundingRate (value : Float64) (min max : ℚ) : Except String Unit :=
  if value < .fin min ∨ .fin max < value then
    .error s!"funding rate {value.formatF} outside bounds [{formatF min},{formatF max}]"
  else .ok ()

def validateFunding (value : Float64) (cfg : ValidationConfig) : Except String Unit :=
  let low := cfg.fundingMin
  let high := cfg.fundingMax
  if value < .fin low ∨ .fin high < value then
    .error s!"funding rate {value.formatF} outside sanity bounds [{formatF low},{formatF high}]"
  else .ok ()

def validateFundingOptional (value : Option Float64) (cfg : ValidationConfig) :
    Except String Unit :=
  match value with
  | none => .ok ()
  | some value => validateFunding value cfg

def validateMarketSnapshot (snapshot : MarketSnapshot) : Except String Unit := do
  validateSource snapshot.toSourceMeta
  validateTimestamp "snapshot_time" snapshot.snapshotTime
  validateOptionals
    [("last_price", snapshot.lastPrice), ("mark_price", snapshot.markPrice),
     ("index_price", snapshot.indexPrice), ("bid_price", snapshot.bidPrice),
     ("ask_price", snapshot.askPrice), ("volume_24h", snapshot.volume24h),
     ("quote_volume_24h", snapshot.quoteVolume24h), ("open_interest", snapshot.openInterest)]
  match snapshot.fundingRate with
  | none => .ok ()
  | some value => validateFundingRate value (-1) 1

def validateKline (kline : Kline) : Except String Unit := do
  validateSource kline.toSourceMeta
  validatePeriod kline.interval
  validateTimestamp "open_time" kline.openTime
  validateTimestamp "close_time" kline.closeTime
  [("open_price", kline.openPrice), ("high_price", kline.highPrice),
   ("low_price", kline.lowPrice), ("close_price", kline.closePrice)].forM fun (name, value) =>
    validateNonNegative name value
  validateOptionals
    [("volume", kline.volume), ("quote_volume", kline.quoteVolume),
     ("taker_buy_volume", kline.takerBuyVolume),
     ("taker_buy_quote_volume", kline.takerBuyQuoteVolume)]

def validateOpenInterest (item : OpenInterest) (history : Bool) : Except String Unit := do
  validateSource item.toSourceMeta
  if history then
    validatePeriod item.period
    if trimSpace item.period = "" then .error "missing period"
  validateTimestamp "snapshot_time" item.snapshotTime
  validateNonNegative "open_interest" item.openInterest
  validateOptionalNonNegative "open_interest_value" item.openInterestValue

def validateFundingSnapshot (item : FundingSnapshot) : Except String Unit := do
  validateSource item.toSourceMeta
  validateTimestamp "snapshot_time" item.snapshotTime
  validateFundingRate item.fundingRate (-1) 1
  validateOptionalNonNegative "mark_price" item.markPrice
  validateOptionalNonNegative "index_price" item.indexPrice

def validateFundingHistory (item : FundingHistory) : Except String Unit := do
  validateSource item.toSourceMeta
  validateTimestamp "funding_time" item.fundingTime
  validateFundingRate item.fundingRate (-1) 1
  validateOptionalNonNegative "mark_price" item.markPrice

def validateBasisPremium (item : BasisPremium) : Except String Unit := do
  validateSource item.toSourceMeta
  validateTimestamp "snapshot_time" item.snapshotTime
  validateOptionals
    [("futures_price", item.futuresPrice), ("mark_price", item.markPrice),
     ("index_price", item.indexPrice), ("spot_price", item.spotPrice)]

def validateExchangeDivergence (item : ExchangeDivergence) : Except String Unit := do
  validateSource item.toSourceMeta
  validateTimestamp "snapshot_time" item.snapshotTime
  if trimSpace item.dataType = "" then .error "missing data_type"

/-! ## The loops -/

inductive Kind where
  | marketSnapshots
  | klines
  | openInterest
  | fundingSnapshots
  | fundingHistory
  | basisPremiums
  | exchangeDivergences
deriving DecidableEq, Repr

namespace Kind

/-- The kinds, in the order of the loops. -/
def all : List Kind :=
  [marketSnapshots, klines, openInterest, fundingSnapshots, fundingHistory, basisPremiums,
    exchangeDivergences]

/-- The kind among all kinds of rows. -/
def rowKind : Kind → RowKind
  | marketSnapshots => .marketSnapshots
  | klines => .klines
  | openInterest => .openInterest
  | fundingSnapshots => .fundingSnapshots
  | fundingHistory => .fundingHistory
  | basisPremiums => .basisPremiums
  | exchangeDivergences => .exchangeDivergences

abbrev Row : Kind → Type
  | marketSnapshots => MarketSnapshot
  | klines => Kline
  | openInterest => OpenInterest
  | fundingSnapshots => FundingSnapshot
  | fundingHistory => FundingHistory
  | basisPremiums => BasisPremium
  | exchangeDivergences => ExchangeDivergence

def rows (result : Result) : (kind : Kind) → List kind.Row
  | marketSnapshots => result.marketSnapshots
  | klines => result.klines
  | openInterest => result.openInterest
  | fundingSnapshots => result.fundingSnapshots
  | fundingHistory => result.fundingHistory
  | basisPremiums => result.basisPremiums
  | exchangeDivergences => result.exchangeDivergences

def source : (kind : Kind) → kind.Row → SourceMeta
  | marketSnapshots, row => row.toSourceMeta
  | klines, row => row.toSourceMeta
  | openInterest, row => row.toSourceMeta
  | fundingSnapshots, row => row.toSourceMeta
  | fundingHistory, row => row.toSourceMeta
  | basisPremiums, row => row.toSourceMeta
  | exchangeDivergences, row => row.toSourceMeta

def time : (kind : Kind) → kind.Row → ℤ
  | marketSnapshots, row => row.snapshotTime
  | klines, row => row.openTime
  | openInterest, row => row.snapshotTime
  | fundingSnapshots, row => row.snapshotTime
  | fundingHistory, row => row.fundingTime
  | basisPremiums, row => row.snapshotTime
  | exchangeDivergences, row => row.snapshotTime

def secondCheck (job : Job) (cfg : ValidationConfig) :
    (kind : Kind) → kind.Row → Except Rejection Unit
  | marketSnapshots, row => funding (validateFundingOptional row.fundingRate cfg)
  | klines, row =>
    (validateInterval row.interval job).mapError (Rejection.mk "interval_mismatch")
  | openInterest, _ => .ok ()
  | fundingSnapshots, row => funding (validateFunding row.fundingRate cfg)
  | fundingHistory, row => funding (validateFunding row.fundingRate cfg)
  | basisPremiums, row => funding (validateFundingOptional row.fundingRate cfg)
  | exchangeDivergences, _ => .ok ()
where
  funding (m : Except String Unit) := m.mapError (Rejection.mk "funding_out_of_range")

def validate (dataType : String) : (kind : Kind) → kind.Row → Except String Unit
  | marketSnapshots, row => validateMarketSnapshot row
  | klines, row => validateKline row
  | openInterest, row => validateOpenInterest row (dataType = "open_interest_history")
  | fundingSnapshots, row => validateFundingSnapshot row
  | fundingHistory, row => validateFundingHistory row
  | basisPremiums, row => validateBasisPremium row
  | exchangeDivergences, row => validateExchangeDivergence row

/-- The funding rates of a row that the second check is about. -/
def checkedRates : (kind : Kind) → kind.Row → List Float64
  | marketSnapshots, row => row.fundingRate.toList
  | fundingSnapshots, row => [row.fundingRate]
  | fundingHistory, row => [row.fundingRate]
  | basisPremiums, row => row.fundingRate.toList
  | _, _ => []

/-- The funding rates of a row that no check reads: the realized rate, and the
    extremes over the exchanges. -/
def uncheckedRates : (kind : Kind) → kind.Row → List Float64
  | fundingHistory, row => row.realizedRate.toList
  | exchangeDivergences, row => row.fundingMin.toList ++ row.fundingMax.toList
  | _, _ => []

/-- The prices, volumes, open interests and notionals of a market snapshot, a
    kline or an open interest. -/
def amounts : (kind : Kind) → kind.Row → List Float64
  | marketSnapshots, row =>
    [row.lastPrice, row.markPrice, row.indexPrice, row.bidPrice, row.askPrice, row.volume24h,
      row.quoteVolume24h, row.openInterest].reduceOption
  | klines, row =>
    [row.openPrice, row.highPrice, row.lowPrice, row.closePrice] ++
      [row.volume, row.quoteVolume, row.takerBuyVolume, row.takerBuyQuoteVolume].reduceOption
  | openInterest, row => row.openInterest :: row.openInterestValue.toList
  | _, _ => []

section
variable (dataType : String) (job : Job) (now : ℤ) (cfg : ValidationConfig)

/-- The checks of a loop, in order. -/
def check (kind : Kind) (row : kind.Row) : Except Rejection Unit := do
  (validateSourceAndTime (kind.source row) (kind.time row) job now cfg).mapError
    (Rejection.mk kind.rowKind.issueType)
  kind.secondCheck job cfg row
  (kind.validate dataType row).mapError (Rejection.mk kind.rowKind.issueType)

/-- One loop: the rows it keeps and the issues of the others. -/
def loop (kind : Kind) (rows : List kind.Row) : List kind.Row × List QualityIssue :=
  keepValid
    (fun row => (kind.check dataType job now cfg row).mapError fun rejection =>
      qualityIssue dataType rejection (kind.source row) job now)
    rows

end

end Kind

/-- `clock` is what `time.Now` returns, for a call without a time. -/
def filterNormalizedResult (clock : ℤ) (dataType : String) (result : Result) (job : Job) (now : ℤ)
    (cfg : ValidationConfig) : Result × List QualityIssue :=
  let cfg := cfg.withDefaults
  let now := if isZero now then clock else now
  let loop (kind : Kind) := kind.loop dataType job now cfg (kind.rows result)
  ({  marketSnapshots := (loop .marketSnapshots).1
      klines := (loop .klines).1
      openInterest := (loop .openInterest).1
      fundingSnapshots := (loop .fundingSnapshots).1
      fundingHistory := (loop .fundingHistory).1
      basisPremiums := (loop .basisPremiums).1
      exchangeDivergences := (loop .exchangeDivergences).1 },
    Kind.all.flatMap fun kind => (loop kind).2)

/-! ## Rational rows -/

theorem keepValid_map {ε α β : Type} (check : β → Except ε Unit) (f : α → β) (items : List α) :
    keepValid check (items.map f) =
      ((keepValid (check ∘ f) items).1.map f, (keepValid (check ∘ f) items).2) := by
  rw [keepValid, List.filter_map, List.filterMap_map]
  rfl

section
variable {name : String} {q : ℚ} {value : Option ℚ} {cfg : ValidationConfig}

@[simp] theorem validateNonNegative_fin :
    validateNonNegative name (.fin q) = Normalizers.validateNonNegative name q := by
  simp [validateNonNegative, Normalizers.validateNonNegative]

@[simp] theorem validateOptionalNonNegative_fin :
    validateOptionalNonNegative name (value.map .fin) =
      Normalizers.validateOptionalNonNegative name value := by
  cases value with
  | none => rfl
  | some q => exact validateNonNegative_fin

@[simp] theorem validateFundingRate_fin {min max : ℚ} :
    validateFundingRate (.fin q) min max = Normalizers.validateFundingRate q min max := by
  rw [validateFundingRate, Normalizers.validateFundingRate, Float64.formatF]
  simp only [Float64.fin_lt_fin]

@[simp] theorem validateFunding_fin :
    validateFunding (.fin q) cfg = Hardening.validateFunding q cfg := by
  rw [validateFunding, Hardening.validateFunding, Float64.formatF]
  simp only [Float64.fin_lt_fin]

@[simp] theorem validateFundingOptional_fin :
    validateFundingOptional (value.map .fin) cfg = Hardening.validateFundingOptional value cfg := by
  cases value with
  | none => rfl
  | some q => exact validateFunding_fin

end

/-- A rational row, over `float64`. -/
def Kind.ofRow : (kind : Kind) → kind.rowKind.Row → kind.Row
  | marketSnapshots, row =>
    { row with
      lastPrice := row.lastPrice.map .fin
      markPrice := row.markPrice.map .fin
      indexPrice := row.indexPrice.map .fin
      bidPrice := row.bidPrice.map .fin
      askPrice := row.askPrice.map .fin
      volume24h := row.volume24h.map .fin
      quoteVolume24h := row.quoteVolume24h.map .fin
      priceChangePercent24h := row.priceChangePercent24h.map .fin
      openInterest := row.openInterest.map .fin
      fundingRate := row.fundingRate.map .fin }
  | klines, row =>
    { row with
      openPrice := .fin row.openPrice
      highPrice := .fin row.highPrice
      lowPrice := .fin row.lowPrice
      closePrice := .fin row.closePrice
      volume := row.volume.map .fin
      quoteVolume := row.quoteVolume.map .fin
      takerBuyVolume := row.takerBuyVolume.map .fin
      takerBuyQuoteVolume := row.takerBuyQuoteVolume.map .fin }
  | openInterest, row =>
    { row with
      openInterest := .fin row.openInterest
      openInterestValue := row.openInterestValue.map .fin }
  | fundingSnapshots, row =>
    { row with
      fundingRate := .fin row.fundingRate
      markPrice := row.markPrice.map .fin
      indexPrice := row.indexPrice.map .fin }
  | fundingHistory, row =>
    { row with
      fundingRate := .fin row.fundingRate
      realizedRate := row.realizedRate.map .fin
      markPrice := row.markPrice.map .fin }
  | basisPremiums, row =>
    { row with
      futuresPrice := row.futuresPrice.map .fin
      markPrice := row.markPrice.map .fin
      indexPrice := row.indexPrice.map .fin
      spotPrice := row.spotPrice.map .fin
      basis := row.basis.map .fin
      basisPercent := row.basisPercent.map .fin
      annualizedBasisPercent := row.annualizedBasisPercent.map .fin
      basisValue := row.basisValue.map .fin
      premiumIndex := row.premiumIndex.map .fin
      fundingRate := row.fundingRate.map .fin }
  | exchangeDivergences, row =>
    { row with
      fundingMin := row.fundingMin.map .fin
      fundingMax := row.fundingMax.map .fin }

namespace Kind

variable {dataType : String} {job : Job} {now : ℤ} {cfg : ValidationConfig} {kind : Kind}

theorem source_ofRow (row : kind.rowKind.Row) :
    kind.source (kind.ofRow row) = kind.rowKind.source row := by
  cases kind <;> rfl

theorem secondCheck_ofRow (row : kind.rowKind.Row) :
    kind.secondCheck job cfg (kind.ofRow row) = kind.rowKind.secondCheck job cfg row := by
  cases kind <;>
    simp only [secondCheck, secondCheck.funding, rowKind, RowKind.secondCheck,
      RowKind.secondCheck.funding, RowKind.secondCheck.interval, ofRow, validateFunding_fin,
      validateFundingOptional_fin]

theorem validate_ofRow (row : kind.rowKind.Row) :
    kind.validate dataType (kind.ofRow row) = kind.rowKind.validate dataType row := by
  cases kind with
  | marketSnapshots =>
    simp only [validate, rowKind, RowKind.validate, validateMarketSnapshot,
      Normalizers.validateMarketSnapshot, ofRow, validateOptionals, Normalizers.validateOptionals,
      List.forM, validateOptionalNonNegative_fin]
    cases row.fundingRate <;> simp
  | klines =>
    simp only [validate, rowKind, RowKind.validate, validateKline, Normalizers.validateKline, ofRow,
      validateOptionals, Normalizers.validateOptionals, List.forM, validateNonNegative_fin,
      validateOptionalNonNegative_fin]
  | openInterest =>
    simp only [validate, rowKind, RowKind.validate, validateOpenInterest,
      Normalizers.validateOpenInterest, ofRow, validateNonNegative_fin,
      validateOptionalNonNegative_fin]
  | fundingSnapshots =>
    simp only [validate, rowKind, RowKind.validate, validateFundingSnapshot,
      Normalizers.validateFundingSnapshot, ofRow, validateFundingRate_fin,
      validateOptionalNonNegative_fin]
  | fundingHistory =>
    simp only [validate, rowKind, RowKind.validate, validateFundingHistory,
      Normalizers.validateFundingHistory, ofRow, validateFundingRate_fin,
      validateOptionalNonNegative_fin]
  | basisPremiums =>
    simp only [validate, rowKind, RowKind.validate, validateBasisPremium,
      Normalizers.validateBasisPremium, ofRow, validateOptionals, Normalizers.validateOptionals,
      List.forM, validateOptionalNonNegative_fin]
  | exchangeDivergences => rfl

theorem check_ofRow (row : kind.rowKind.Row) :
    kind.check dataType job now cfg (kind.ofRow row) =
      kind.rowKind.check dataType job now cfg row := by
  have htime : kind.time (kind.ofRow row) = kind.rowKind.time row := by cases kind <;> rfl
  rw [check, RowKind.check, source_ofRow, htime, secondCheck_ofRow, validate_ofRow]

/-- On rational rows a loop keeps and reports what the loop over rationals does. -/
theorem loop_ofRow (eventKey : NormalizedLiquidationEvent → String)
    (rows : List kind.rowKind.Row) :
    kind.loop dataType job now cfg (rows.map kind.ofRow) =
      ((kind.rowKind.loop eventKey dataType job now cfg rows).1.map kind.ofRow,
        (kind.rowKind.loop eventKey dataType job now cfg rows).2) := by
  have hprepare : rows.map (kind.rowKind.prepare eventKey) = rows := by
    cases kind <;> exact List.map_id _
  rw [loop, keepValid_map, RowKind.loop, hprepare]
  simp only [Function.comp_def, check_ofRow, source_ofRow]

end Kind

/-- A rational result, over `float64`. -/
def Result.of (result : NormalizedResult) : Result where
  marketSnapshots := result.marketSnapshots.map (Kind.ofRow .marketSnapshots)
  klines := result.klines.map (Kind.ofRow .klines)
  openInterest := result.openInterest.map (Kind.ofRow .openInterest)
  fundingSnapshots := result.fundingSnapshots.map (Kind.ofRow .fundingSnapshots)
  fundingHistory := result.fundingHistory.map (Kind.ofRow .fundingHistory)
  basisPremiums := result.basisPremiums.map (Kind.ofRow .basisPremiums)
  exchangeDivergences := result.exchangeDivergences.map (Kind.ofRow .exchangeDivergences)

theorem rows_filter (clock : ℤ) (dataType : String) (result : Result) (job : Job) (now : ℤ)
    (cfg : ValidationConfig) (kind : Kind) :
    kind.rows (filterNormalizedResult clock dataType result job now cfg).1 =
      (kind.loop dataType job (if isZero now then clock else now) cfg.withDefaults
        (kind.rows result)).1 := by
  cases kind <;> rfl

/-- The filter keeps the rows of a rational result that it keeps over the rationals. -/
theorem rows_filter_of (eventKey : NormalizedLiquidationEvent → String) (clock : ℤ)
    (dataType : String) (result : NormalizedResult) (job : Job) (now : ℤ) (cfg : ValidationConfig)
    (kind : Kind) :
    kind.rows (filterNormalizedResult clock dataType (.of result) job now cfg).1 =
      (kind.rowKind.rows (Hardening.filterNormalizedResult eventKey clock dataType result job now
        cfg).1).map kind.ofRow := by
  have hrows : kind.rows (.of result) = (kind.rowKind.rows result).map kind.ofRow := by
    cases kind <;> rfl
  rw [rows_filter, hrows, Kind.loop_ofRow eventKey]
  cases kind <;> rfl

/-! ## What is kept -/

section
variable {name : String} {x : Float64} {value : Option Float64} {cfg : ValidationConfig}

theorem validateFunding_iff :
    validateFunding x cfg = .ok () ↔ x = .nan ∨ x.Within cfg.fundingMin cfg.fundingMax :=
  ite_eq_ok.trans Float64.not_outside

theorem validateFundingOptional_iff :
    validateFundingOptional value cfg = .ok () ↔
      ∀ x ∈ value.toList, x = .nan ∨ x.Within cfg.fundingMin cfg.fundingMax := by
  cases value with
  | none => exact iff_of_true rfl nofun
  | some x =>
    rw [validateFundingOptional, validateFunding_iff, Option.toList_some, List.forall_mem_singleton]

theorem validateNonNegative_iff :
    validateNonNegative name x = .ok () ↔ x = .nan ∨ x = .posInf ∨ x.NonNegative :=
  ite_eq_ok.trans Float64.not_lt_fin

theorem validateOptionalNonNegative_iff :
    validateOptionalNonNegative name value = .ok () ↔
      ∀ x ∈ value, x = .nan ∨ x = .posInf ∨ x.NonNegative := by
  cases value with
  | none => exact iff_of_true rfl nofun
  | some x =>
    rw [validateOptionalNonNegative, validateNonNegative_iff]
    simp

theorem validateOptionals_iff {checks : List (String × Option Float64)} :
    validateOptionals checks = .ok () ↔
      ∀ x ∈ (checks.map (·.2)).reduceOption, x = .nan ∨ x = .posInf ∨ x.NonNegative := by
  rw [validateOptionals, forM_eq_ok]
  simp only [validateOptionalNonNegative_iff, List.reduceOption_mem_iff, List.mem_map,
    Option.mem_def]
  constructor
  · rintro h x ⟨c, hc, hx⟩
    exact h c hc x hx
  · intro h c hc x hx
    exact h x ⟨c, hc, hx⟩

theorem validateOpenInterest_amounts {item : OpenInterest} {history : Bool}
    (h : validateOpenInterest item history = .ok ()) :
    validateNonNegative "open_interest" item.openInterest = .ok () ∧
      validateOptionalNonNegative "open_interest_value" item.openInterestValue = .ok () := by
  rw [validateOpenInterest, check_eq_ok] at h
  obtain ⟨-, h⟩ := h
  cases history with
  | true =>
    simp only [if_true] at h
    rw [check_eq_ok, guard_eq_ok, check_eq_ok, check_eq_ok] at h
    exact h.2.2.2
  | false =>
    simp only [Bool.false_eq_true, if_false] at h
    rw [check_eq_ok, check_eq_ok] at h
    exact h.2

end

namespace Kind

variable {dataType : String} {job : Job} {now : ℤ} {cfg : ValidationConfig} {kind : Kind}
  {row : kind.Row}

theorem check_iff :
    kind.check dataType job now cfg row = .ok () ↔
      validateSourceAndTime (kind.source row) (kind.time row) job now cfg = .ok () ∧
        kind.secondCheck job cfg row = .ok () ∧ kind.validate dataType row = .ok () := by
  rw [check, check_eq_ok, mapError_eq_ok, check_eq_ok, mapError_eq_ok]

/-- The sanity bounds leave the rates between them, and NaN. -/
theorem rates_of_check (h : kind.check dataType job now cfg row = .ok ()) :
    ∀ rate ∈ kind.checkedRates row,
      rate = .nan ∨ rate.Within cfg.fundingMin cfg.fundingMax := by
  obtain ⟨-, hsecond, -⟩ := check_iff.1 h
  cases kind with
  | marketSnapshots => exact validateFundingOptional_iff.1 (mapError_eq_ok.1 hsecond)
  | fundingSnapshots =>
    exact List.forall_mem_singleton.2 (validateFunding_iff.1 (mapError_eq_ok.1 hsecond))
  | fundingHistory =>
    exact List.forall_mem_singleton.2 (validateFunding_iff.1 (mapError_eq_ok.1 hsecond))
  | basisPremiums => exact validateFundingOptional_iff.1 (mapError_eq_ok.1 hsecond)
  | klines => exact nofun
  | openInterest => exact nofun
  | exchangeDivergences => exact nofun

/-- The checks of a row leave the amounts that are not negative, NaN and `+Inf`. -/
theorem amounts_of_check (h : kind.check dataType job now cfg row = .ok ()) :
    ∀ amount ∈ kind.amounts row,
      amount = .nan ∨ amount = .posInf ∨ amount.NonNegative := by
  obtain ⟨-, -, hvalid⟩ := check_iff.1 h
  cases kind with
  | marketSnapshots =>
    rw [validate, validateMarketSnapshot, check_eq_ok, check_eq_ok, check_eq_ok,
      validateOptionals_iff] at hvalid
    exact hvalid.2.2.1
  | klines =>
    rw [validate, validateKline, check_eq_ok, check_eq_ok, check_eq_ok, check_eq_ok, check_eq_ok,
      forM_eq_ok, validateOptionals_iff] at hvalid
    obtain ⟨-, -, -, -, hprices, hvolumes⟩ := hvalid
    refine List.forall_mem_append.2 ⟨?_, hvolumes⟩
    simpa [validateNonNegative_iff] using hprices
  | openInterest =>
    obtain ⟨hinterest, hnotional⟩ := validateOpenInterest_amounts hvalid
    rw [validateOptionalNonNegative_iff] at hnotional
    exact List.forall_mem_cons.2
      ⟨validateNonNegative_iff.1 hinterest, fun x hx => hnotional x (Option.mem_toList.1 hx)⟩
  | fundingSnapshots => exact nofun
  | fundingHistory => exact nofun
  | basisPremiums => exact nofun
  | exchangeDivergences => exact nofun

end Kind

/-- The rows that pass the checks are kept, and no others. -/
theorem mem_filter (clock : ℤ) (dataType : String) (result : Result) (job : Job) (now : ℤ)
    (cfg : ValidationConfig) (kind : Kind) (row : kind.Row) :
    row ∈ kind.rows (filterNormalizedResult clock dataType result job now cfg).1 ↔
      row ∈ kind.rows result ∧ kind.check dataType job (if isZero now then clock else now)
        cfg.withDefaults row = .ok () := by
  rw [rows_filter, Kind.loop, mem_keepValid, mapError_eq_ok]

/-- What the gate is for: the rates of a kept row are finite and in the sanity
    bounds, its amounts are finite and not negative. -/
structure Sane (cfg : ValidationConfig) (kind : Kind) (row : kind.Row) : Prop where
  rates : ∀ rate ∈ kind.checkedRates row ++ kind.uncheckedRates row,
    rate.Within cfg.fundingMin cfg.fundingMax
  amounts : ∀ amount ∈ kind.amounts row, amount.NonNegative

/-- What a row that passes the checks may not hold: a NaN, an infinite amount, a rate
    that no check reads and that is out of bounds, and, where both bounds are zero and
    the defaults take their place, a rate that is not zero. -/
structure Regular (cfg : ValidationConfig) (kind : Kind) (row : kind.Row) : Prop where
  checked : ∀ rate ∈ kind.checkedRates row,
    rate ≠ .nan ∧ (cfg.fundingMin = 0 ∧ cfg.fundingMax = 0 → rate = .fin 0)
  unchecked : ∀ rate ∈ kind.uncheckedRates row, rate.Within cfg.fundingMin cfg.fundingMax
  amounts : ∀ amount ∈ kind.amounts row, amount ≠ .nan ∧ amount ≠ .posInf

theorem withDefaults_bounds {cfg : ValidationConfig}
    (h : ¬(cfg.fundingMin = 0 ∧ cfg.fundingMax = 0)) :
    cfg.withDefaults.fundingMin = cfg.fundingMin ∧
      cfg.withDefaults.fundingMax = cfg.fundingMax := by
  by_cases hskew : cfg.maxFutureSkew ≤ 0 <;>
    simp only [ValidationConfig.withDefaults, hskew, h, if_true, if_false, and_self]

theorem within_iff_of_withDefaults {cfg : ValidationConfig} {rate : Float64}
    (h : rate = .nan ∨ rate.Within cfg.withDefaults.fundingMin cfg.withDefaults.fundingMax) :
    rate.Within cfg.fundingMin cfg.fundingMax ↔
      rate ≠ .nan ∧ (cfg.fundingMin = 0 ∧ cfg.fundingMax = 0 → rate = .fin 0) := by
  constructor
  · rintro ⟨q, rfl, hlow, hhigh⟩
    refine ⟨nofun, fun ⟨hmin, hmax⟩ => ?_⟩
    rw [hmin] at hlow
    rw [hmax] at hhigh
    rw [le_antisymm hhigh hlow]
  · rintro ⟨hnan, hzero⟩
    by_cases hdefault : cfg.fundingMin = 0 ∧ cfg.fundingMax = 0
    · exact ⟨0, hzero hdefault, hdefault.1.le, hdefault.2.ge⟩
    · obtain ⟨hmin, hmax⟩ := withDefaults_bounds hdefault
      rw [hmin, hmax] at h
      exact h.resolve_left hnan

theorem nonNegative_iff_of_check {amount : Float64}
    (h : amount = .nan ∨ amount = .posInf ∨ amount.NonNegative) :
    amount.NonNegative ↔ amount ≠ .nan ∧ amount ≠ .posInf := by
  constructor
  · rintro ⟨q, rfl, -⟩
    exact ⟨nofun, nofun⟩
  · rintro ⟨hnan, hinf⟩
    exact (h.resolve_left hnan).resolve_left hinf

theorem sane_iff_regular {dataType : String} {job : Job} {now : ℤ} {cfg : ValidationConfig}
    {kind : Kind} {row : kind.Row}
    (h : kind.check dataType job now cfg.withDefaults row = .ok ()) :
    Sane cfg kind row ↔ Regular cfg kind row := by
  have hrates : (∀ rate ∈ kind.checkedRates row, rate.Within cfg.fundingMin cfg.fundingMax) ↔ _ :=
    forall₂_congr fun rate hrate => within_iff_of_withDefaults (Kind.rates_of_check h rate hrate)
  have hamounts : (∀ amount ∈ kind.amounts row, amount.NonNegative) ↔ _ :=
    forall₂_congr fun amount hmem => nonNegative_iff_of_check (Kind.amounts_of_check h amount hmem)
  constructor
  · rintro ⟨hr, ha⟩
    obtain ⟨hchecked, hunchecked⟩ := List.forall_mem_append.1 hr
    exact ⟨hrates.1 hchecked, hunchecked, hamounts.1 ha⟩
  · rintro ⟨hchecked, hunchecked, ha⟩
    exact ⟨List.forall_mem_append.2 ⟨hrates.2 hchecked, hunchecked⟩, hamounts.2 ha⟩

/-- The gate keeps the rows that pass the checks; their rates and amounts are finite
    and in bounds exactly if every row of the result that passes them is regular. -/
theorem filter_sane_iff (clock : ℤ) (dataType : String) (result : Result) (job : Job) (now : ℤ)
    (cfg : ValidationConfig) :
    let passes (kind : Kind) (row : kind.Row) := kind.check dataType job
      (if isZero now then clock else now) cfg.withDefaults row = .ok ()
    let kept := (filterNormalizedResult clock dataType result job now cfg).1
    (∀ kind : Kind, ∀ row, row ∈ kind.rows kept ↔ row ∈ kind.rows result ∧ passes kind row) ∧
    ((∀ kind : Kind, ∀ row ∈ kind.rows kept, Sane cfg kind row) ↔
      ∀ kind : Kind, ∀ row ∈ kind.rows result, passes kind row → Regular cfg kind row) := by
  intro passes kept
  have hkept := mem_filter clock dataType result job now cfg
  refine ⟨hkept, forall_congr' fun kind => ?_⟩
  constructor
  · intro h row hrow hpass
    exact (sane_iff_regular hpass).1 (h row ((hkept kind row).2 ⟨hrow, hpass⟩))
  · intro h row hrow
    obtain ⟨hmem, hpass⟩ := (hkept kind row).1 hrow
    exact (sane_iff_regular hpass).2 (h row hmem hpass)

/-- A snapshot whose price and rate are read from `"NaN"`, a candle that is
    infinite, and an open interest of both. -/
def notNumbers : Result where
  marketSnapshots :=
    [⟨bitcoin, noon, some .nan, none, none, none, none, none, none, none, none, some .nan⟩]
  klines := [⟨bitcoin, "5m", noon, noon + minute, .posInf, .posInf, .posInf, .posInf, none, none,
    none, none, none, true⟩]
  openInterest := [⟨bitcoin, noon, "", .posInf, some .nan⟩]

/-- A rate of two percent. -/
def twoPercent : Result where
  fundingSnapshots := [⟨bitcoin, noon, .fin (1 / 50), 0, none, none⟩]

/-- The gate keeps values that are no numbers, and with both bounds zero a rate
    that is not zero; there is no issue. -/
theorem filter_insane :
    filterNormalizedResult 0 "ticker" notNumbers mixedJob noon defaultValidationConfig =
      (notNumbers, []) ∧
    (¬∀ row ∈ Kind.rows notNumbers .marketSnapshots,
      Sane defaultValidationConfig .marketSnapshots row) ∧
    (¬∀ row ∈ Kind.rows notNumbers .klines, Sane defaultValidationConfig .klines row) ∧
    (¬∀ row ∈ Kind.rows notNumbers .openInterest,
      Sane defaultValidationConfig .openInterest row) ∧
    filterNormalizedResult 0 "funding_rate" twoPercent mixedJob noon ⟨minute, 0, 0⟩ =
      (twoPercent, []) ∧
    ¬∀ row ∈ Kind.rows twoPercent .fundingSnapshots,
      Sane ⟨minute, 0, 0⟩ .fundingSnapshots row := by
  refine ⟨Prod.ext (by decide +kernel) (List.length_eq_zero_iff.1 (by decide +kernel)), ?_, ?_, ?_,
    Prod.ext (by decide +kernel) (List.length_eq_zero_iff.1 (by decide +kernel)), ?_⟩
  · intro h
    obtain ⟨q, hq, -⟩ := (h _ List.mem_cons_self).rates .nan (by decide)
    cases hq
  · intro h
    obtain ⟨q, hq, -⟩ := (h _ List.mem_cons_self).amounts .posInf (by decide)
    cases hq
  · intro h
    obtain ⟨q, hq, -⟩ := (h _ List.mem_cons_self).amounts .nan (by decide)
    cases hq
  · intro h
    obtain ⟨q, hq, -, hhigh⟩ := (h _ List.mem_cons_self).rates (.fin (1 / 50)) List.mem_cons_self
    cases hq
    norm_num at hhigh

end Aggregator.Hardening.Floats
