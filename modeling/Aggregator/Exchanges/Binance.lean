/-
  The adapter of binance (`internal/exchanges/binance/adapter.go`).
-/
import Aggregator.Exchanges.Common

namespace Aggregator.Exchanges.Binance

open Aggregator.Go Aggregator.Normalizers Aggregator.Scheduler

/-! ## Responses -/

structure ErrorEnvelope where
  code : Option ℤ := none
  msg : String := ""

def ErrorEnvelope.fields : List (StructField ErrorEnvelope) :=
  [.intPtr "code" (·.code) fun s x => { s with code := x },
   .string "msg" (·.msg) fun s x => { s with msg := x }]

structure TickerResponse where
  symbol : String := ""
  lastPrice : String := ""
  markPrice : String := ""
  indexPrice : String := ""
  bidPrice : String := ""
  askPrice : String := ""
  volume : String := ""
  quoteVolume : String := ""
  priceChangePercent : String := ""
  openInterest : String := ""
  fundingRate : String := ""
  closeTime : ℤ := 0
  time : ℤ := 0

def TickerResponse.fields : List (StructField TickerResponse) :=
  [.string "symbol" (·.symbol) fun s x => { s with symbol := x },
   .string "lastPrice" (·.lastPrice) fun s x => { s with lastPrice := x },
   .string "markPrice" (·.markPrice) fun s x => { s with markPrice := x },
   .string "indexPrice" (·.indexPrice) fun s x => { s with indexPrice := x },
   .string "bidPrice" (·.bidPrice) fun s x => { s with bidPrice := x },
   .string "askPrice" (·.askPrice) fun s x => { s with askPrice := x },
   .string "volume" (·.volume) fun s x => { s with volume := x },
   .string "quoteVolume" (·.quoteVolume) fun s x => { s with quoteVolume := x },
   .string "priceChangePercent" (·.priceChangePercent)
      fun s x => { s with priceChangePercent := x },
   .string "openInterest" (·.openInterest) fun s x => { s with openInterest := x },
   .string "lastFundingRate" (·.fundingRate) fun s x => { s with fundingRate := x },
   .int "closeTime" (·.closeTime) fun s x => { s with closeTime := x },
   .int "time" (·.time) fun s x => { s with time := x }]

structure OpenInterestResponse where
  symbol : String := ""
  openInterest : String := ""
  time : ℤ := 0

def OpenInterestResponse.fields : List (StructField OpenInterestResponse) :=
  [.string "symbol" (·.symbol) fun s x => { s with symbol := x },
   .string "openInterest" (·.openInterest) fun s x => { s with openInterest := x },
   .int "time" (·.time) fun s x => { s with time := x }]

structure LongShortRatioItem where
  symbol : String := ""
  longShortRatio : String := ""
  longAccount : String := ""
  shortAccount : String := ""
  timestamp : ℤ := 0

def LongShortRatioItem.fields : List (StructField LongShortRatioItem) :=
  [.string "symbol" (·.symbol) fun s x => { s with symbol := x },
   .string "longShortRatio" (·.longShortRatio) fun s x => { s with longShortRatio := x },
   .string "longAccount" (·.longAccount) fun s x => { s with longAccount := x },
   .string "shortAccount" (·.shortAccount) fun s x => { s with shortAccount := x },
   .int "timestamp" (·.timestamp) fun s x => { s with timestamp := x }]

structure TakerFlowItem where
  symbol : String := ""
  buySellRatio : String := ""
  buyVol : String := ""
  sellVol : String := ""
  timestamp : ℤ := 0

def TakerFlowItem.fields : List (StructField TakerFlowItem) :=
  [.string "symbol" (·.symbol) fun s x => { s with symbol := x },
   .string "buySellRatio" (·.buySellRatio) fun s x => { s with buySellRatio := x },
   .string "buyVol" (·.buyVol) fun s x => { s with buyVol := x },
   .string "sellVol" (·.sellVol) fun s x => { s with sellVol := x },
   .int "timestamp" (·.timestamp) fun s x => { s with timestamp := x }]

structure BasisItem where
  pair : String := ""
  contractType : String := ""
  futuresPrice : String := ""
  indexPrice : String := ""
  basis : String := ""
  basisRate : String := ""
  timestamp : ℤ := 0

def BasisItem.fields : List (StructField BasisItem) :=
  [.string "pair" (·.pair) fun s x => { s with pair := x },
   .string "contractType" (·.contractType) fun s x => { s with contractType := x },
   .string "futuresPrice" (·.futuresPrice) fun s x => { s with futuresPrice := x },
   .string "indexPrice" (·.indexPrice) fun s x => { s with indexPrice := x },
   .string "basis" (·.basis) fun s x => { s with basis := x },
   .string "basisRate" (·.basisRate) fun s x => { s with basisRate := x },
   .int "timestamp" (·.timestamp) fun s x => { s with timestamp := x }]

structure OrderbookResponse where
  lastUpdateId : ℤ := 0
  bids : List (List String) := []
  asks : List (List String) := []

def OrderbookResponse.fields : List (StructField OrderbookResponse) :=
  [.int "lastUpdateId" (·.lastUpdateId) fun s x => { s with lastUpdateId := x },
   .strings "bids" (·.bids) fun s x => { s with bids := x },
   .strings "asks" (·.asks) fun s x => { s with asks := x }]

structure LiquidationItem where
  symbol : String := ""
  price : String := ""
  origQty : String := ""
  executedQty : String := ""
  averagePrice : String := ""
  status : String := ""
  time : ℤ := 0
  side : String := ""

def LiquidationItem.fields : List (StructField LiquidationItem) :=
  [.string "symbol" (·.symbol) fun s x => { s with symbol := x },
   .string "price" (·.price) fun s x => { s with price := x },
   .string "origQty" (·.origQty) fun s x => { s with origQty := x },
   .string "executedQty" (·.executedQty) fun s x => { s with executedQty := x },
   .string "averagePrice" (·.averagePrice) fun s x => { s with averagePrice := x },
   .string "status" (·.status) fun s x => { s with status := x },
   .int "time" (·.time) fun s x => { s with time := x },
   .string "side" (·.side) fun s x => { s with side := x }]

/-! ## What is read from a body -/

/-- `[][12]any`. -/
def readKlines (body : Option Json) : Outcome (List (List Json)) :=
  unmarshal body (Json.decodeSlice (Json.decodeArray 12)) "parse binance klines"

def readOrderbook (body : Option Json) : Outcome OrderbookResponse :=
  unmarshal body (Json.decodeStruct OrderbookResponse.fields {}) "parse binance orderbook"

def readLiquidations (body : Option Json) : Outcome (List LiquidationItem) :=
  unmarshal body (Json.decodeSlice (Json.decodeStruct LiquidationItem.fields {}))
    "parse binance liquidation"

/-! ## Normalizers -/

section
variable (pf : ParseFloat) (resp : ExchangeResponse) (job : Job) (symbol : Symbol)

def normalizeTicker : Outcome NormalizedResult := do
  match resp.body.bind (Json.decodeStruct ErrorEnvelope.fields {}) with
  | some ⟨some code, msg⟩ => fail s!"{errExchangeResponse}: binance code={code} msg={msg}"
  | _ => pure ()
  let ticker ← unmarshal resp.body (Json.decodeStruct TickerResponse.fields {})
    "parse binance ticker"
  let snapshotTime := if 0 < ticker.closeTime then unixMilli ticker.closeTime else resp.capturedAt
  let snapshotTime := if 0 < ticker.time then unixMilli ticker.time else snapshotTime
  tickerResult pf
    { exchange := "binance"
      snapshotTime := snapshotTime
      lastPrice := .str ticker.lastPrice
      markPrice := .str ticker.markPrice
      indexPrice := .str ticker.indexPrice
      bidPrice := .str ticker.bidPrice
      askPrice := .str ticker.askPrice
      volume24h := .str ticker.volume
      quoteVolume24h := .str ticker.quoteVolume
      priceChangePercent24h := .str ticker.priceChangePercent
      openInterest := .str ticker.openInterest
      fundingRate := .str ticker.fundingRate }
    resp job symbol

/-- A candle is closed unless its last element is a bool that says otherwise. -/
def isClosed (k : List Json) : Bool :=
  match elem k 11 with
  | .bool confirm => confirm
  | _ => true

def kline (k : List Json) : NormalizedKline where
  toSourceMeta := sourceMeta "binance" job symbol
  interval := job.period
  openTime := mustTime (millisToTime (elem k 0))
  closeTime := mustTime (millisToTime (elem k 6))
  openPrice := parseFloatSafe pf (elem k 1)
  highPrice := parseFloatSafe pf (elem k 2)
  lowPrice := parseFloatSafe pf (elem k 3)
  closePrice := parseFloatSafe pf (elem k 4)
  volume := floatPtrSafe pf (elem k 5)
  quoteVolume := floatPtrSafe pf (elem k 7)
  tradeCount := some (float64ToInt64 (parseFloatSafe pf (elem k 8)))
  takerBuyVolume := floatPtrSafe pf (elem k 9)
  takerBuyQuoteVolume := floatPtrSafe pf (elem k 10)
  isClosed := isClosed k

def normalizeKline : Outcome NormalizedResult := do
  let klines ← readKlines resp.body
  return { klines := emit validateKline (klines.map (kline pf job symbol)) }

def normalizeOpenInterest : Outcome NormalizedResult := do
  let oi ← unmarshal resp.body (Json.decodeStruct OpenInterestResponse.fields {})
    "parse binance open interest"
  let snapshotTime := if 0 < oi.time then unixMilli oi.time else resp.capturedAt
  openInterestResult "binance" snapshotTime (parseFloatSafe pf (.str oi.openInterest)) job symbol

def longShortRatio (item : LongShortRatioItem) : NormalizedLongShortRatio where
  toSourceMeta := sourceMeta "binance" job symbol
  period := job.period
  snapshotTime := unixMilli item.timestamp
  longRatio := none
  shortRatio := none
  longAccountRatio := floatPtrSafe pf (.str item.longAccount)
  shortAccountRatio := floatPtrSafe pf (.str item.shortAccount)
  longShortRatio := floatPtrSafe pf (.str item.longShortRatio)

def normalizeLongShortRatio : Outcome NormalizedResult := do
  let items ← unmarshal resp.body (Json.decodeSlice (Json.decodeStruct LongShortRatioItem.fields {}))
    "parse binance long/short ratio"
  let ratios := items.map (longShortRatio pf job symbol)
  return { longShortRatios := emit validateLongShortRatio ratios }

def normalizeTakerFlow : Outcome NormalizedResult := do
  let items ← unmarshal resp.body (Json.decodeSlice (Json.decodeStruct TakerFlowItem.fields {}))
    "parse binance taker flow"
  let flows := items.map fun item => takerFlow pf "binance" (unixMilli item.timestamp)
    (.str item.buyVol) (.str item.sellVol) job symbol
  return { takerFlows := emit validateTakerFlow flows }

def basisPremium (item : BasisItem) : NormalizedBasisPremium :=
  let basisRate := floatPtrSafe pf (.str item.basisRate)
  { toSourceMeta := sourceMeta "binance" job symbol
    snapshotTime := unixMilli item.timestamp
    futuresPrice := floatPtrSafe pf (.str item.futuresPrice)
    indexPrice := floatPtrSafe pf (.str item.indexPrice)
    basis := floatPtrSafe pf (.str item.basis)
    basisPercent := basisRate
    annualizedBasisPercent := basisRate.map (· * 365 * 100) }

def normalizeBasis : Outcome NormalizedResult := do
  let items ← unmarshal resp.body (Json.decodeSlice (Json.decodeStruct BasisItem.fields {}))
    "parse binance basis"
  return { basisPremiums := emit validateBasisPremium (items.map (basisPremium pf job symbol)) }

def normalizeOrderbook : Outcome NormalizedResult := do
  let ob ← readOrderbook resp.body
  orderbookResult (parseFloatSafe pf ∘ .str) "binance" ob.bids ob.asks resp.capturedAt job symbol

def liquidation (item : LiquidationItem) : NormalizedLiquidationEvent :=
  liquidationEvent "binance" (eventKey item.symbol item.side (toString item.time))
    (unixMilli item.time) item.side (floatPtrSafe pf (.str item.price))
    (floatPtrSafe pf (.str item.origQty)) job symbol

def normalizeLiquidation : Outcome NormalizedResult := do
  let items ← readLiquidations resp.body
  return liquidationResult "binance" (fun event => event.side = "SELL" || event.side = "LONG")
    (items.map (liquidation pf job symbol)) resp job symbol

def normalize (dataType : String) : Outcome NormalizedResult :=
  match dataType with
  | "ticker" | "mark_price" | "index_price" | "funding" => normalizeTicker pf resp job symbol
  | "kline" => normalizeKline pf resp job symbol
  | "open_interest" => normalizeOpenInterest pf resp job symbol
  | "long_short_ratio" => normalizeLongShortRatio pf resp job symbol
  | "taker_flow" => normalizeTakerFlow pf resp job symbol
  | "basis" => normalizeBasis pf resp job symbol
  | "orderbook" | "orderbook_imbalance" => normalizeOrderbook pf resp job symbol
  | "liquidation" => normalizeLiquidation pf resp job symbol
  | _ => fail errUnsupportedDataType

end

end Aggregator.Exchanges.Binance
