/-
  The normalized rows of market data that the exchange adapters make, and their
  checks (`internal/normalizers/models.go`, `validation.go`).

  Where a check ranges over a Go map the model takes the order in which the
  source lists the entries.  The raw data of a row is kept for market snapshots,
  whose raw data is read again when they are aggregated.
-/
import Aggregator.Go.Json
import Aggregator.Go.Strconv
import Aggregator.Normalizers.Validation

namespace Aggregator.Normalizers

open Aggregator.Go

structure NormalizedMarketSnapshot extends SourceMeta where
  rawData : Option Json
  snapshotTime : ℤ
  lastPrice : Option ℚ
  markPrice : Option ℚ
  indexPrice : Option ℚ
  bidPrice : Option ℚ
  askPrice : Option ℚ
  volume24h : Option ℚ
  quoteVolume24h : Option ℚ
  priceChangePercent24h : Option ℚ
  openInterest : Option ℚ
  fundingRate : Option ℚ

structure NormalizedKline extends SourceMeta where
  interval : String
  openTime : ℤ
  closeTime : ℤ
  openPrice : ℚ
  highPrice : ℚ
  lowPrice : ℚ
  closePrice : ℚ
  volume : Option ℚ
  quoteVolume : Option ℚ
  tradeCount : Option ℤ
  takerBuyVolume : Option ℚ
  takerBuyQuoteVolume : Option ℚ
  isClosed : Bool
deriving DecidableEq, Repr

structure NormalizedOpenInterest extends SourceMeta where
  snapshotTime : ℤ
  period : String
  openInterest : ℚ
  openInterestValue : Option ℚ := none
deriving DecidableEq, Repr

structure NormalizedFundingSnapshot extends SourceMeta where
  snapshotTime : ℤ
  fundingRate : ℚ
  nextFundingTime : ℤ
  markPrice : Option ℚ
  indexPrice : Option ℚ
deriving DecidableEq, Repr

structure NormalizedFundingHistory extends SourceMeta where
  fundingTime : ℤ
  fundingRate : ℚ
  realizedRate : Option ℚ
  markPrice : Option ℚ
deriving DecidableEq, Repr

structure NormalizedLongShortRatio extends SourceMeta where
  period : String
  snapshotTime : ℤ
  longRatio : Option ℚ
  shortRatio : Option ℚ
  longAccountRatio : Option ℚ
  shortAccountRatio : Option ℚ
  longShortRatio : Option ℚ
  longPositionRatio : Option ℚ := none
  shortPositionRatio : Option ℚ := none
  topTraderLongRatio : Option ℚ := none
  topTraderShortRatio : Option ℚ := none
deriving DecidableEq, Repr

structure NormalizedBasisPremium extends SourceMeta where
  snapshotTime : ℤ
  futuresPrice : Option ℚ := none
  markPrice : Option ℚ := none
  indexPrice : Option ℚ := none
  spotPrice : Option ℚ := none
  basis : Option ℚ
  basisPercent : Option ℚ
  annualizedBasisPercent : Option ℚ
  basisValue : Option ℚ := none
  premiumIndex : Option ℚ := none
  fundingRate : Option ℚ := none
deriving DecidableEq, Repr

structure NormalizedOrderbookImbalance extends SourceMeta where
  snapshotTime : ℤ
  depthLevels : ℤ
  midPrice : Option ℚ
  spreadBPS : Option ℚ
  bidNotional : Option ℚ
  askNotional : Option ℚ
  imbalanceRatio : Option ℚ
  bidDepthUSD : Option ℚ := none
  askDepthUSD : Option ℚ := none
  bidDepth1PctUSD : Option ℚ := none
  askDepth1PctUSD : Option ℚ := none
  bidDepth2PctUSD : Option ℚ := none
  askDepth2PctUSD : Option ℚ := none
  bidDepth5PctUSD : Option ℚ := none
  askDepth5PctUSD : Option ℚ := none
  spreadPercent : Option ℚ := none
  imbalancePercent : Option ℚ := none
deriving DecidableEq, Repr

structure NormalizedExchangeDivergence extends SourceMeta where
  dataType : String
  snapshotTime : ℤ
  referenceExchange : String
  comparedExchange : String
  referenceValue : Option ℚ
  comparedValue : Option ℚ
  divergenceAbs : Option ℚ
  divergenceBPS : Option ℚ
  priceMin : Option ℚ
  priceMax : Option ℚ
  priceSpreadPercent : Option ℚ
  oiMin : Option ℚ
  oiMax : Option ℚ
  oiSpreadPercent : Option ℚ
  fundingMin : Option ℚ
  fundingMax : Option ℚ
  fundingSpread : Option ℚ
  volumeMin : Option ℚ
  volumeMax : Option ℚ
  volumeSpreadPercent : Option ℚ
  strongestExchange : String
  weakestExchange : String
  rawByExchange : Option Json

/-- What an adapter returns. -/
structure NormalizedResult where
  marketSnapshots : List NormalizedMarketSnapshot := []
  klines : List NormalizedKline := []
  openInterest : List NormalizedOpenInterest := []
  fundingSnapshots : List NormalizedFundingSnapshot := []
  fundingHistory : List NormalizedFundingHistory := []
  longShortRatios : List NormalizedLongShortRatio := []
  takerFlows : List NormalizedTakerFlow := []
  cvdSnapshots : List NormalizedCVD := []
  liquidationEvents : List NormalizedLiquidationEvent := []
  liquidationAggregates : List NormalizedLiquidationAggregate := []
  basisPremiums : List NormalizedBasisPremium := []
  orderbookImbalances : List NormalizedOrderbookImbalance := []
  exchangeDivergences : List NormalizedExchangeDivergence := []

/-! ## Checks -/

/-- The loop over a map of optional values. -/
def validateOptionals (checks : List (String × Option ℚ)) : Except String Unit :=
  checks.forM fun (name, value) => validateOptionalNonNegative name value

def validateFundingRate (value min max : ℚ) : Except String Unit :=
  if value < min ∨ max < value then
    .error s!"funding rate {formatF value} outside bounds [{formatF min},{formatF max}]"
  else .ok ()

def validateMarketSnapshot (snapshot : NormalizedMarketSnapshot) : Except String Unit := do
  validateSource snapshot.toSourceMeta
  validateTimestamp "snapshot_time" snapshot.snapshotTime
  validateOptionals
    [("last_price", snapshot.lastPrice), ("mark_price", snapshot.markPrice),
     ("index_price", snapshot.indexPrice), ("bid_price", snapshot.bidPrice),
     ("ask_price", snapshot.askPrice), ("volume_24h", snapshot.volume24h),
     ("quote_volume_24h", snapshot.quoteVolume24h), ("open_interest", snapshot.openInterest)]
  match snapshot.fundingRate with
  | none => .ok ()
  | some value => validateFundingRate value (-1) 1

def validateKline (kline : NormalizedKline) : Except String Unit := do
  validateSource kline.toSourceMeta
  validatePeriod kline.interval
  validateTimestamp "open_time" kline.openTime
  validateTimestamp "close_time" kline.closeTime
  [("open_price", kline.openPrice), ("high_price", kline.highPrice),
   ("low_price", kline.lowPrice), ("close_price", kline.closePrice)].forM fun (name, value) =>
    validateNonNegative name value
  validateOptionals
    [("volume", kline.volume), ("quote_volume", kline.quoteVolume),
     ("taker_buy_volume", kline.takerBuyVolume),
     ("taker_buy_quote_volume", kline.takerBuyQuoteVolume)]

def validateOpenInterest (item : NormalizedOpenInterest) (history : Bool) :
    Except String Unit := do
  validateSource item.toSourceMeta
  if history then
    validatePeriod item.period
    if trimSpace item.period = "" then .error "missing period"
  validateTimestamp "snapshot_time" item.snapshotTime
  validateNonNegative "open_interest" item.openInterest
  validateOptionalNonNegative "open_interest_value" item.openInterestValue

def validateFundingSnapshot (item : NormalizedFundingSnapshot) : Except String Unit := do
  validateSource item.toSourceMeta
  validateTimestamp "snapshot_time" item.snapshotTime
  validateFundingRate item.fundingRate (-1) 1
  validateOptionalNonNegative "mark_price" item.markPrice
  validateOptionalNonNegative "index_price" item.indexPrice

def validateFundingHistory (item : NormalizedFundingHistory) : Except String Unit := do
  validateSource item.toSourceMeta
  validateTimestamp "funding_time" item.fundingTime
  validateFundingRate item.fundingRate (-1) 1
  validateOptionalNonNegative "mark_price" item.markPrice

def validateLongShortRatio (item : NormalizedLongShortRatio) : Except String Unit := do
  validateSource item.toSourceMeta
  validateTimestamp "snapshot_time" item.snapshotTime
  validatePeriod item.period

def validateTakerFlow (item : NormalizedTakerFlow) : Except String Unit := do
  validateSource item.toSourceMeta
  validateTimestamp "snapshot_time" item.snapshotTime
  validatePeriod item.period
  validateOptionals
    [("taker_buy_volume", item.takerBuyVolume), ("taker_sell_volume", item.takerSellVolume),
     ("taker_buy_quote_volume", item.takerBuyQuoteVolume),
     ("taker_sell_quote_volume", item.takerSellQuoteVolume)]

def validateBasisPremium (item : NormalizedBasisPremium) : Except String Unit := do
  validateSource item.toSourceMeta
  validateTimestamp "snapshot_time" item.snapshotTime
  validateOptionals
    [("futures_price", item.futuresPrice), ("mark_price", item.markPrice),
     ("index_price", item.indexPrice), ("spot_price", item.spotPrice)]

def validateOrderbookImbalance (item : NormalizedOrderbookImbalance) : Except String Unit := do
  validateSource item.toSourceMeta
  validateTimestamp "snapshot_time" item.snapshotTime
  if item.depthLevels ≤ 0 then .error "depth_levels must be greater than 0"
  validateOptionals
    [("mid_price", item.midPrice), ("bid_notional", item.bidNotional),
     ("ask_notional", item.askNotional), ("bid_depth_usd", item.bidDepthUSD),
     ("ask_depth_usd", item.askDepthUSD), ("bid_depth_1pct_usd", item.bidDepth1PctUSD),
     ("ask_depth_1pct_usd", item.askDepth1PctUSD), ("bid_depth_2pct_usd", item.bidDepth2PctUSD),
     ("ask_depth_2pct_usd", item.askDepth2PctUSD), ("bid_depth_5pct_usd", item.bidDepth5PctUSD),
     ("ask_depth_5pct_usd", item.askDepth5PctUSD)]

def validateExchangeDivergence (item : NormalizedExchangeDivergence) : Except String Unit := do
  validateSource item.toSourceMeta
  validateTimestamp "snapshot_time" item.snapshotTime
  if trimSpace item.dataType = "" then .error "missing data_type"

/-! ## What passes -/

theorem validateOptionals_iff {checks : List (String × Option ℚ)} :
    validateOptionals checks = .ok () ↔ ∀ c ∈ checks, ∀ q ∈ c.2, 0 ≤ q := by
  rw [validateOptionals, forM_eq_ok]
  exact forall₂_congr fun c _ => validateOptionalNonNegative_iff

theorem validateKline_iff {kline : NormalizedKline} :
    validateKline kline = .ok () ↔
      validateSource kline.toSourceMeta = .ok () ∧ validatePeriod kline.interval = .ok () ∧
      kline.openTime ≠ 0 ∧ kline.closeTime ≠ 0 ∧
      (∀ p ∈ [kline.openPrice, kline.highPrice, kline.lowPrice, kline.closePrice], 0 ≤ p) ∧
      ∀ a ∈ [kline.volume, kline.quoteVolume, kline.takerBuyVolume, kline.takerBuyQuoteVolume],
        ∀ q ∈ a, 0 ≤ q := by
  rw [validateKline, check_eq_ok, check_eq_ok, check_eq_ok, check_eq_ok, check_eq_ok,
    validateTimestamp_iff, validateTimestamp_iff, forM_eq_ok, validateOptionals_iff]
  simp [validateNonNegative_iff]

theorem validateMarketSnapshot_iff {snapshot : NormalizedMarketSnapshot} :
    validateMarketSnapshot snapshot = .ok () ↔
      validateSource snapshot.toSourceMeta = .ok () ∧ snapshot.snapshotTime ≠ 0 ∧
      (∀ a ∈ [snapshot.lastPrice, snapshot.markPrice, snapshot.indexPrice, snapshot.bidPrice,
        snapshot.askPrice, snapshot.volume24h, snapshot.quoteVolume24h, snapshot.openInterest],
        ∀ q ∈ a, 0 ≤ q) ∧
      ∀ rate ∈ snapshot.fundingRate, validateFundingRate rate (-1) 1 = .ok () := by
  rw [validateMarketSnapshot, check_eq_ok, check_eq_ok, check_eq_ok, validateTimestamp_iff,
    validateOptionals_iff]
  cases snapshot.fundingRate with
  | none => simp
  | some rate => simp

/-- The amounts of a snapshot that passes are not negative. -/
theorem validateMarketSnapshot_ok {snapshot : NormalizedMarketSnapshot}
    (h : validateMarketSnapshot snapshot = .ok ()) :
    (∀ q ∈ snapshot.volume24h, 0 ≤ q) ∧ (∀ q ∈ snapshot.quoteVolume24h, 0 ≤ q) ∧
      ∀ q ∈ snapshot.openInterest, 0 ≤ q := by
  obtain ⟨-, -, hamounts, -⟩ := validateMarketSnapshot_iff.1 h
  exact ⟨hamounts _ (by simp), hamounts _ (by simp), hamounts _ (by simp)⟩

end Aggregator.Normalizers
