/-
  The adapter of bybit (`internal/exchanges/bybit/adapter.go`).
-/
import Aggregator.Exchanges.Common

namespace Aggregator.Exchanges.Bybit

open Aggregator.Go Aggregator.Normalizers Aggregator.Scheduler

/-! ## Responses -/

structure BaseEnvelope where
  retCode : ℤ := 0
  retMsg : String := ""
  result : Option Json := none
  time : ℤ := 0

def BaseEnvelope.fields : List (StructField BaseEnvelope) :=
  [.int "retCode" (·.retCode) fun s x => { s with retCode := x },
   .string "retMsg" (·.retMsg) fun s x => { s with retMsg := x },
   .raw "result" (·.result) fun s x => { s with result := x },
   .int "time" (·.time) fun s x => { s with time := x }]

structure TickerRecord where
  symbol : String := ""
  lastPrice : String := ""
  markPrice : String := ""
  indexPrice : String := ""
  bid1Price : String := ""
  ask1Price : String := ""
  volume24h : String := ""
  turnover24h : String := ""
  price24hPcnt : String := ""
  openInterest : String := ""
  fundingRate : String := ""
  nextFundingTime : String := ""

def TickerRecord.fields : List (StructField TickerRecord) :=
  [.string "symbol" (·.symbol) fun s x => { s with symbol := x },
   .string "lastPrice" (·.lastPrice) fun s x => { s with lastPrice := x },
   .string "markPrice" (·.markPrice) fun s x => { s with markPrice := x },
   .string "indexPrice" (·.indexPrice) fun s x => { s with indexPrice := x },
   .string "bid1Price" (·.bid1Price) fun s x => { s with bid1Price := x },
   .string "ask1Price" (·.ask1Price) fun s x => { s with ask1Price := x },
   .string "volume24h" (·.volume24h) fun s x => { s with volume24h := x },
   .string "turnover24h" (·.turnover24h) fun s x => { s with turnover24h := x },
   .string "price24hPcnt" (·.price24hPcnt) fun s x => { s with price24hPcnt := x },
   .string "openInterest" (·.openInterest) fun s x => { s with openInterest := x },
   .string "fundingRate" (·.fundingRate) fun s x => { s with fundingRate := x },
   .string "nextFundingTime" (·.nextFundingTime) fun s x => { s with nextFundingTime := x }]

structure OiRecord where
  openInterest : String := ""
  timestamp : String := ""

def OiRecord.fields : List (StructField OiRecord) :=
  [.string "openInterest" (·.openInterest) fun s x => { s with openInterest := x },
   .string "timestamp" (·.timestamp) fun s x => { s with timestamp := x }]

structure LsRatioRecord where
  symbol : String := ""
  buyRatio : String := ""
  sellRatio : String := ""
  timestamp : String := ""

def LsRatioRecord.fields : List (StructField LsRatioRecord) :=
  [.string "symbol" (·.symbol) fun s x => { s with symbol := x },
   .string "buyRatio" (·.buyRatio) fun s x => { s with buyRatio := x },
   .string "sellRatio" (·.sellRatio) fun s x => { s with sellRatio := x },
   .string "timestamp" (·.timestamp) fun s x => { s with timestamp := x }]

structure ObResult where
  asks : List (List String) := []
  bids : List (List String) := []
  ts : String := ""

def ObResult.fields : List (StructField ObResult) :=
  [.strings "a" (·.asks) fun s x => { s with asks := x },
   .strings "b" (·.bids) fun s x => { s with bids := x },
   .string "ts" (·.ts) fun s x => { s with ts := x }]

structure LiquidationRecord where
  symbol : String := ""
  side : String := ""
  price : String := ""
  size : String := ""
  timestamp : String := ""

def LiquidationRecord.fields : List (StructField LiquidationRecord) :=
  [.string "symbol" (·.symbol) fun s x => { s with symbol := x },
   .string "side" (·.side) fun s x => { s with side := x },
   .string "price" (·.price) fun s x => { s with price := x },
   .string "size" (·.size) fun s x => { s with size := x },
   .string "timestamp" (·.timestamp) fun s x => { s with timestamp := x }]

/-- The results that only have a list: `tickerResult`, `klineResult`, `oiResult`,
    `lsRatioResult` and `liquidationResult`. -/
structure ListResult (τ : Type) where
  list : List τ := []

def ListResult.fields {τ : Type} (encode : τ → Json) (decode : Json → Option τ) :
    List (StructField (ListResult τ)) :=
  [.slice "list" encode decode (·.list) fun s x => { s with list := x }]

/-! ## What is read from a body -/

def parseBaseEnvelope (body : Option Json) : Outcome BaseEnvelope := do
  let env ← unmarshal body (Json.decodeStruct BaseEnvelope.fields {}) "parse bybit response"
  let code := env.retCode
  let msg := env.retMsg
  if code ≠ 0 then fail s!"{errExchangeResponse}: bybit code={code} msg={msg}"
  return env

/-- The list of records of a result. -/
def readList {τ : Type} (fields : List (StructField τ)) (zero : τ) (result : Option Json)
    (context : String) : Outcome (List τ) := do
  let result ← unmarshal result (Json.decodeStruct (ListResult.fields (Json.encodeStruct fields)
    (Json.decodeStruct fields zero)) {}) context
  return result.list

/-- The candles, `[][]string`. -/
def readKlines (body : Option Json) : Outcome (List (List String)) := do
  let env ← parseBaseEnvelope body
  let result ← unmarshal env.result (Json.decodeStruct (ListResult.fields
    (fun k : List String => .arr (k.map .str)) (Json.decodeSlice (Json.decodeString ""))) {})
    "parse bybit klines"
  return result.list

def readLongShortRatios (body : Option Json) : Outcome (List LsRatioRecord) := do
  let env ← parseBaseEnvelope body
  readList LsRatioRecord.fields {} env.result "parse bybit long/short ratio"

def readOrderbook (body : Option Json) : Outcome ObResult := do
  let env ← parseBaseEnvelope body
  unmarshal env.result (Json.decodeStruct ObResult.fields {}) "parse bybit orderbook"

def readLiquidations (body : Option Json) : Outcome (List LiquidationRecord) := do
  let env ← parseBaseEnvelope body
  readList LiquidationRecord.fields {} env.result "parse bybit liquidation"

/-! ## Normalizers -/

section
variable (pf : ParseFloat) (resp : ExchangeResponse) (job : Job) (symbol : Symbol)

def normalizeTicker : Outcome NormalizedResult := do
  let env ← parseBaseEnvelope resp.body
  let list ← readList TickerRecord.fields {} env.result "parse bybit ticker"
  match list with
  | [] => fail "bybit ticker list is empty"
  | item :: _ =>
    tickerResult pf
      { exchange := "bybit"
        snapshotTime := unixMilli env.time
        lastPrice := .str item.lastPrice
        markPrice := .str item.markPrice
        indexPrice := .str item.indexPrice
        bidPrice := .str item.bid1Price
        askPrice := .str item.ask1Price
        volume24h := .str item.volume24h
        quoteVolume24h := .str item.turnover24h
        priceChangePercent24h := .str item.price24hPcnt
        openInterest := .str item.openInterest
        fundingRate := .str item.fundingRate
        rawData := some (Json.encodeStruct TickerRecord.fields item) }
      resp job symbol

def kline (k : List String) : NormalizedKline where
  toSourceMeta := sourceMeta "bybit" job symbol
  interval := job.period
  openTime := mustTime (millisToTime (.str (k.getD 0 "")))
  closeTime := mustTime (millisToTime (.str (k.getD 0 "")))
  openPrice := parseFloatSafe pf (.str (k.getD 1 ""))
  highPrice := parseFloatSafe pf (.str (k.getD 2 ""))
  lowPrice := parseFloatSafe pf (.str (k.getD 3 ""))
  closePrice := parseFloatSafe pf (.str (k.getD 4 ""))
  volume := floatPtrSafe pf (.str (k.getD 5 ""))
  quoteVolume := floatPtrSafe pf (.str (k.getD 6 ""))
  tradeCount := none
  takerBuyVolume := none
  takerBuyQuoteVolume := none
  isClosed := true

/-- Candles with less than seven elements are skipped. -/
def normalizeKline : Outcome NormalizedResult := do
  let list ← readKlines resp.body
  let klines := (list.filter fun k => 7 ≤ k.length).map (kline pf job symbol)
  return { klines := emit validateKline klines }

def normalizeOpenInterest : Outcome NormalizedResult := do
  let env ← parseBaseEnvelope resp.body
  let list ← readList OiRecord.fields {} env.result "parse bybit open interest"
  match list with
  | [] => return {}
  | item :: _ =>
    let snapshotTime := if item.timestamp ≠ "" then mustTime (millisToTime (.str item.timestamp))
      else resp.capturedAt
    openInterestResult "bybit" snapshotTime (parseFloatSafe pf (.str item.openInterest)) job symbol

def longShortRatio (item : LsRatioRecord) : Outcome NormalizedLongShortRatio := do
  let buyRatio := floatPtrSafe pf (.str item.buyRatio)
  let sellRatio := floatPtrSafe pf (.str item.sellRatio)
  let lsRatio ← longShortUnchecked buyRatio sellRatio
  return {
    toSourceMeta := sourceMeta "bybit" job symbol
    period := job.period
    snapshotTime := mustTime (millisToTime (.str item.timestamp))
    longRatio := none
    shortRatio := none
    longAccountRatio := buyRatio
    shortAccountRatio := sellRatio
    longShortRatio := lsRatio }

def normalizeLongShortRatio : Outcome NormalizedResult := do
  let list ← readLongShortRatios resp.body
  let ratios ← list.mapM (longShortRatio pf job symbol)
  return { longShortRatios := emit validateLongShortRatio ratios }

def normalizeOrderbook : Outcome NormalizedResult := do
  let ob ← readOrderbook resp.body
  orderbookResult (parseFloatSafe pf ∘ .str) "bybit" ob.bids ob.asks resp.capturedAt job symbol

def liquidation (item : LiquidationRecord) : NormalizedLiquidationEvent :=
  liquidationEvent "bybit" (eventKey item.symbol (toUpper item.side) item.timestamp)
    (mustTime (millisToTime (.str item.timestamp))) (toUpper item.side)
    (floatPtrSafe pf (.str item.price)) (floatPtrSafe pf (.str item.size)) job symbol

def normalizeLiquidation : Outcome NormalizedResult := do
  let list ← readLiquidations resp.body
  return liquidationResult "bybit" (fun event => event.side = "SELL" || event.side = "LONG")
    (list.map (liquidation pf job symbol)) resp job symbol

def normalize (dataType : String) : Outcome NormalizedResult :=
  match dataType with
  | "ticker" | "mark_price" | "index_price" | "funding" => normalizeTicker pf resp job symbol
  | "kline" => normalizeKline pf resp job symbol
  | "open_interest" => normalizeOpenInterest pf resp job symbol
  | "long_short_ratio" => normalizeLongShortRatio pf resp job symbol
  | "orderbook" | "orderbook_imbalance" => normalizeOrderbook pf resp job symbol
  | "liquidation" => normalizeLiquidation pf resp job symbol
  | _ => fail errUnsupportedDataType

end

end Aggregator.Exchanges.Bybit
