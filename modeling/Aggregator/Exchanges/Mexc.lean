/-
  The adapter of mexc (`internal/exchanges/mexc/adapter.go`).

  Numbers are JSON numbers here, and the candles of a response are columns.
-/
import Aggregator.Exchanges.Common

namespace Aggregator.Exchanges.Mexc

open Aggregator.Go Aggregator.Normalizers Aggregator.Scheduler

/-! ## Responses -/

structure Envelope where
  success : Bool := false
  code : ℤ := 0
  message : String := ""
  data : Option Json := none

def Envelope.fields : List (StructField Envelope) :=
  [.bool "success" (·.success) fun s x => { s with success := x },
   .int "code" (·.code) fun s x => { s with code := x },
   .string "message" (·.message) fun s x => { s with message := x },
   .raw "data" (·.data) fun s x => { s with data := x }]

structure TickerRecord where
  symbol : String := ""
  lastPrice : ℚ := 0
  bidPrice : ℚ := 0
  askPrice : ℚ := 0
  volume24h : ℚ := 0
  quoteVolume : ℚ := 0
  openInterest : ℚ := 0
  indexPrice : ℚ := 0
  markPrice : ℚ := 0
  fundingRate : ℚ := 0
  timestamp : ℤ := 0

def TickerRecord.fields : List (StructField TickerRecord) :=
  [.string "symbol" (·.symbol) fun s x => { s with symbol := x },
   .float "lastPrice" (·.lastPrice) fun s x => { s with lastPrice := x },
   .float "bid1" (·.bidPrice) fun s x => { s with bidPrice := x },
   .float "ask1" (·.askPrice) fun s x => { s with askPrice := x },
   .float "volume24" (·.volume24h) fun s x => { s with volume24h := x },
   .float "amount24" (·.quoteVolume) fun s x => { s with quoteVolume := x },
   .float "holdVol" (·.openInterest) fun s x => { s with openInterest := x },
   .float "indexPrice" (·.indexPrice) fun s x => { s with indexPrice := x },
   .float "fairPrice" (·.markPrice) fun s x => { s with markPrice := x },
   .float "fundingRate" (·.fundingRate) fun s x => { s with fundingRate := x },
   .int "timestamp" (·.timestamp) fun s x => { s with timestamp := x }]

structure KlineData where
  time : List ℤ := []
  openPrices : List ℚ := []
  high : List ℚ := []
  low : List ℚ := []
  close : List ℚ := []
  vol : List ℚ := []

def KlineData.fields : List (StructField KlineData) :=
  [.slice "time" .int (Json.decodeInt 0)
      (·.time) fun s x => { s with time := x },
   .slice "open" .dec (Json.decodeFloat 0)
      (·.openPrices) fun s x => { s with openPrices := x },
   .slice "high" .dec (Json.decodeFloat 0)
      (·.high) fun s x => { s with high := x },
   .slice "low" .dec (Json.decodeFloat 0)
      (·.low) fun s x => { s with low := x },
   .slice "close" .dec (Json.decodeFloat 0)
      (·.close) fun s x => { s with close := x },
   .slice "vol" .dec (Json.decodeFloat 0)
      (·.vol) fun s x => { s with vol := x }]

structure OrderbookData where
  asks : List (List ℚ) := []
  bids : List (List ℚ) := []

def OrderbookData.fields : List (StructField OrderbookData) :=
  [.floats "asks" (·.asks) fun s x => { s with asks := x },
   .floats "bids" (·.bids) fun s x => { s with bids := x }]

structure LiquidationItem where
  symbol : String := ""
  price : ℚ := 0
  qty : ℚ := 0
  side : String := ""
  time : ℤ := 0

def LiquidationItem.fields : List (StructField LiquidationItem) :=
  [.string "symbol" (·.symbol) fun s x => { s with symbol := x },
   .float "price" (·.price) fun s x => { s with price := x },
   .float "qty" (·.qty) fun s x => { s with qty := x },
   .string "side" (·.side) fun s x => { s with side := x },
   .int "time" (·.time) fun s x => { s with time := x }]

structure LiquidationData where
  items : List LiquidationItem := []

def LiquidationData.fields : List (StructField LiquidationData) :=
  [.slice "items" (Json.encodeStruct LiquidationItem.fields) (Json.decodeStruct LiquidationItem.fields {})
      (·.items) fun s x => { s with items := x }]

/-! ## What is read from a body -/

/-- The data of a successful response. -/
def readEnvelope (body : Option Json) : Outcome (Option Json) := do
  let payload ← unmarshal body (Json.decodeStruct Envelope.fields {}) "parse mexc response"
  let code := payload.code
  let msg := payload.message
  if !payload.success then fail s!"{errExchangeResponse}: mexc code={code} msg={msg}"
  return payload.data

structure Candle where
  time : ℤ
  openPrice : ℚ
  high : ℚ
  low : ℚ
  close : ℚ
  vol : ℚ
deriving DecidableEq, Repr

/-- The candles that all columns have an element for. -/
def KlineData.candles (kd : KlineData) : List Candle :=
  (kd.time.zip (kd.openPrices.zip (kd.high.zip (kd.low.zip (kd.close.zip kd.vol))))).map
    fun (time, openPrice, high, low, close, vol) => ⟨time, openPrice, high, low, close, vol⟩

def readKlines (body : Option Json) : Outcome (List Candle) := do
  let data ← readEnvelope body
  let kd ← unmarshal data (Json.decodeStruct KlineData.fields {}) "parse mexc kline"
  return kd.candles

def readOrderbook (body : Option Json) : Outcome OrderbookData := do
  let data ← readEnvelope body
  unmarshal data (Json.decodeStruct OrderbookData.fields {}) "parse mexc orderbook"

def readLiquidations (body : Option Json) : Outcome (List LiquidationItem) := do
  let data ← readEnvelope body
  let ld ← unmarshal data (Json.decodeStruct LiquidationData.fields {}) "parse mexc liquidation"
  return ld.items

def firstTicker (raw : Option Json) : Outcome TickerRecord := do
  match raw.bind (Json.decodeSlice (Json.decodeStruct TickerRecord.fields {})) with
  | some (item :: _) => return item
  | _ =>
    let item ← unmarshal raw (Json.decodeStruct TickerRecord.fields {}) "parse mexc ticker"
    if item.symbol = "" then fail "mexc response data is empty"
    return item

/-! ## Normalizers -/

section
variable (pf : ParseFloat) (resp : ExchangeResponse) (job : Job) (symbol : Symbol)

def normalizeTicker : Outcome NormalizedResult := do
  let data ← readEnvelope resp.body
  let item ← firstTicker data
  tickerResult pf
    { exchange := "mexc"
      snapshotTime := unixMilli item.timestamp
      lastPrice := .dec item.lastPrice
      markPrice := .dec item.markPrice
      indexPrice := .dec item.indexPrice
      bidPrice := .dec item.bidPrice
      askPrice := .dec item.askPrice
      volume24h := .dec item.volume24h
      quoteVolume24h := .dec item.quoteVolume
      openInterest := .dec item.openInterest
      fundingRate := .dec item.fundingRate
      rawData := some (Json.encodeStruct TickerRecord.fields item) }
    resp job symbol

def normalizeOpenInterest : Outcome NormalizedResult := do
  let data ← readEnvelope resp.body
  let item ← firstTicker data
  let snapshotTime := if 0 < item.timestamp then unixMilli item.timestamp else resp.capturedAt
  openInterestResult "mexc" snapshotTime item.openInterest job symbol

/-- The time at which a candle is taken to close. -/
def closeTime (openTime : ℤ) : ℤ := timeAdd openTime minute

def kline (candle : Candle) : NormalizedKline where
  toSourceMeta := sourceMeta "mexc" job symbol
  interval := job.period
  openTime := unixSeconds candle.time
  closeTime := closeTime (unixSeconds candle.time)
  openPrice := candle.openPrice
  highPrice := candle.high
  lowPrice := candle.low
  closePrice := candle.close
  volume := some candle.vol
  quoteVolume := none
  tradeCount := none
  takerBuyVolume := none
  takerBuyQuoteVolume := none
  isClosed := true

def normalizeKline : Outcome NormalizedResult := do
  let candles ← readKlines resp.body
  return { klines := emit validateKline (candles.map (kline job symbol)) }

def normalizeOrderbook : Outcome NormalizedResult := do
  let ob ← readOrderbook resp.body
  orderbookResult id "mexc" ob.bids ob.asks resp.capturedAt job symbol

/-- The side of the order that closes the position; the key keeps the side of
    the position. -/
def side (item : LiquidationItem) : String := if item.side = "LONG" then "SELL" else "BUY"

def liquidation (item : LiquidationItem) : NormalizedLiquidationEvent :=
  liquidationEvent "mexc" (eventKey item.symbol item.side (toString item.time))
    (unixSeconds item.time) (side item) (some item.price) (some item.qty) job symbol

def normalizeLiquidation : Outcome NormalizedResult := do
  let items ← readLiquidations resp.body
  return liquidationResult "mexc" (fun event => event.side = "SELL")
    (items.map (liquidation job symbol)) resp job symbol

def normalize (dataType : String) : Outcome NormalizedResult :=
  match dataType with
  | "ticker" | "mark_price" | "index_price" | "funding" => normalizeTicker pf resp job symbol
  | "open_interest" => normalizeOpenInterest resp job symbol
  | "kline" => normalizeKline resp job symbol
  | "orderbook" | "orderbook_imbalance" => normalizeOrderbook resp job symbol
  | "liquidation" => normalizeLiquidation resp job symbol
  | _ => fail errUnsupportedDataType

end

end Aggregator.Exchanges.Mexc
