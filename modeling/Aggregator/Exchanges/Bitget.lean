/-
  The adapter of bitget (`internal/exchanges/bitget/adapter.go`).
-/
import Aggregator.Exchanges.Common

namespace Aggregator.Exchanges.Bitget

open Aggregator.Go Aggregator.Normalizers Aggregator.Scheduler

/-! ## Responses -/

structure Envelope where
  code : String := ""
  msg : String := ""
  requestTime : ℤ := 0
  data : Option Json := none

def Envelope.fields : List (StructField Envelope) :=
  [.string "code" (·.code) fun s x => { s with code := x },
   .string "msg" (·.msg) fun s x => { s with msg := x },
   .int "requestTime" (·.requestTime) fun s x => { s with requestTime := x },
   .raw "data" (·.data) fun s x => { s with data := x }]

structure TickerRecord where
  symbol : String := ""
  lastPrice : String := ""
  markPrice : String := ""
  indexPrice : String := ""
  bidPrice : String := ""
  askPrice : String := ""
  baseVolume : String := ""
  quoteVolume : String := ""
  change24h : String := ""
  openInterest : String := ""
  fundingRate : String := ""

def TickerRecord.fields : List (StructField TickerRecord) :=
  [.string "symbol" (·.symbol) fun s x => { s with symbol := x },
   .string "lastPr" (·.lastPrice) fun s x => { s with lastPrice := x },
   .string "markPrice" (·.markPrice) fun s x => { s with markPrice := x },
   .string "indexPrice" (·.indexPrice) fun s x => { s with indexPrice := x },
   .string "bidPr" (·.bidPrice) fun s x => { s with bidPrice := x },
   .string "askPr" (·.askPrice) fun s x => { s with askPrice := x },
   .string "baseVolume" (·.baseVolume) fun s x => { s with baseVolume := x },
   .string "quoteVolume" (·.quoteVolume) fun s x => { s with quoteVolume := x },
   .string "change24h" (·.change24h) fun s x => { s with change24h := x },
   .string "openInterest" (·.openInterest) fun s x => { s with openInterest := x },
   .string "fundingRate" (·.fundingRate) fun s x => { s with fundingRate := x }]

structure OpenInterestRecord where
  openInterest : String := ""
  symbol : String := ""
  ts : String := ""

def OpenInterestRecord.fields : List (StructField OpenInterestRecord) :=
  [.string "openInterest" (·.openInterest) fun s x => { s with openInterest := x },
   .string "symbol" (·.symbol) fun s x => { s with symbol := x },
   .string "ts" (·.ts) fun s x => { s with ts := x }]

structure LongShortRatioRecord where
  longRatio : String := ""
  shortRatio : String := ""
  ts : String := ""

def LongShortRatioRecord.fields : List (StructField LongShortRatioRecord) :=
  [.string "longRatio" (·.longRatio) fun s x => { s with longRatio := x },
   .string "shortRatio" (·.shortRatio) fun s x => { s with shortRatio := x },
   .string "ts" (·.ts) fun s x => { s with ts := x }]

structure OrderbookRecord where
  asks : List (List String) := []
  bids : List (List String) := []

def OrderbookRecord.fields : List (StructField OrderbookRecord) :=
  [.strings "asks" (·.asks) fun s x => { s with asks := x },
   .strings "bids" (·.bids) fun s x => { s with bids := x }]

/-! ## What is read from a body -/

/-- The envelope of a response without an error. -/
def readEnvelope (body : Option Json) : Outcome Envelope := do
  let payload ← unmarshal body (Json.decodeStruct Envelope.fields {}) "parse bitget response"
  let code := payload.code
  let msg := payload.msg
  if code ≠ "" ∧ code ≠ "00000" then fail s!"{errExchangeResponse}: bitget code={code} msg={msg}"
  return payload

/-- `[][7]any`. -/
def readKlines (body : Option Json) : Outcome (List (List Json)) := do
  let payload ← readEnvelope body
  unmarshal payload.data (Json.decodeSlice (Json.decodeArray 7)) "parse bitget klines"

def readLongShortRatios (body : Option Json) : Outcome (List LongShortRatioRecord) := do
  let payload ← readEnvelope body
  unmarshal payload.data (Json.decodeSlice (Json.decodeStruct LongShortRatioRecord.fields {}))
    "parse bitget long/short ratio"

/-- The first of the order books. -/
def readOrderbook (body : Option Json) : Outcome OrderbookRecord := do
  let payload ← readEnvelope body
  let items ← unmarshal payload.data
    (Json.decodeSlice (Json.decodeStruct OrderbookRecord.fields {})) "parse bitget orderbook"
  match items with
  | [] => fail "bitget orderbook data is empty"
  | ob :: _ => return ob

def firstTicker (raw : Option Json) : Outcome TickerRecord := do
  match raw.bind (Json.decodeSlice (Json.decodeStruct TickerRecord.fields {})) with
  | some (item :: _) => return item
  | _ =>
    let item ← unmarshal raw (Json.decodeStruct TickerRecord.fields {}) "parse bitget ticker"
    if item.symbol = "" then fail "bitget response data is empty"
    return item

/-! ## Normalizers -/

section
variable (pf : ParseFloat) (resp : ExchangeResponse) (job : Job) (symbol : Symbol)

def normalizeTicker : Outcome NormalizedResult := do
  let payload ← readEnvelope resp.body
  let item ← firstTicker payload.data
  tickerResult pf
    { exchange := "bitget"
      snapshotTime := unixMilli payload.requestTime
      lastPrice := .str item.lastPrice
      markPrice := .str item.markPrice
      indexPrice := .str item.indexPrice
      bidPrice := .str item.bidPrice
      askPrice := .str item.askPrice
      volume24h := .str item.baseVolume
      quoteVolume24h := .str item.quoteVolume
      priceChangePercent24h := .str item.change24h
      openInterest := .str item.openInterest
      fundingRate := .str item.fundingRate
      rawData := some (Json.encodeStruct TickerRecord.fields item) }
    resp job symbol

def kline (k : List Json) : NormalizedKline where
  toSourceMeta := sourceMeta "bitget" job symbol
  interval := job.period
  openTime := mustTime (millisToTime (elem k 0))
  closeTime := mustTime (millisToTime (elem k 0))
  openPrice := parseFloatSafe pf (elem k 1)
  highPrice := parseFloatSafe pf (elem k 2)
  lowPrice := parseFloatSafe pf (elem k 3)
  closePrice := parseFloatSafe pf (elem k 4)
  volume := floatPtrSafe pf (elem k 5)
  quoteVolume := floatPtrSafe pf (elem k 6)
  tradeCount := none
  takerBuyVolume := none
  takerBuyQuoteVolume := none
  isClosed := true

def normalizeKline : Outcome NormalizedResult := do
  let klines ← readKlines resp.body
  return { klines := emit validateKline (klines.map (kline pf job symbol)) }

/-- The time of a record, or that of the response if there is none. -/
def recordTime (ts : String) : ℤ :=
  if ts ≠ "" then match millisToTime (.str ts) with
    | .ok t => t
    | .error _ => resp.capturedAt
  else resp.capturedAt

def normalizeOpenInterest : Outcome NormalizedResult := do
  let payload ← readEnvelope resp.body
  let items ← unmarshal payload.data
    (Json.decodeSlice (Json.decodeStruct OpenInterestRecord.fields {})) "parse bitget open interest"
  match items with
  | [] => fail "bitget open interest data is empty"
  | item :: _ =>
    openInterestResult "bitget" (recordTime resp item.ts)
      (parseFloatSafe pf (.str item.openInterest)) job symbol

def longShortRatio (item : LongShortRatioRecord) : Outcome NormalizedLongShortRatio := do
  let longRatio := floatPtrSafe pf (.str item.longRatio)
  let shortRatio := floatPtrSafe pf (.str item.shortRatio)
  let lsRatio ← longShortUnchecked longRatio shortRatio
  return {
    toSourceMeta := sourceMeta "bitget" job symbol
    period := job.period
    snapshotTime := recordTime resp item.ts
    longRatio := none
    shortRatio := none
    longAccountRatio := longRatio
    shortAccountRatio := shortRatio
    longShortRatio := lsRatio }

def normalizeLongShortRatio : Outcome NormalizedResult := do
  let items ← readLongShortRatios resp.body
  let ratios ← items.mapM (longShortRatio pf resp job symbol)
  return { longShortRatios := emit validateLongShortRatio ratios }

def normalizeOrderbook : Outcome NormalizedResult := do
  let ob ← readOrderbook resp.body
  orderbookResult (parseFloatSafe pf ∘ .str) "bitget" ob.bids ob.asks resp.capturedAt job symbol

def normalize (dataType : String) : Outcome NormalizedResult :=
  match dataType with
  | "ticker" | "mark_price" | "index_price" | "funding" => normalizeTicker pf resp job symbol
  | "kline" => normalizeKline pf resp job symbol
  | "open_interest" => normalizeOpenInterest pf resp job symbol
  | "long_short_ratio" => normalizeLongShortRatio pf resp job symbol
  | "orderbook" | "orderbook_imbalance" => normalizeOrderbook pf resp job symbol
  | _ => fail errUnsupportedDataType

end

end Aggregator.Exchanges.Bitget
