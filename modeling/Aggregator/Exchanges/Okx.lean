/-
  The adapter of okx (`internal/exchanges/okx/adapter.go`).

  Every response is an envelope, which is checked before the data type.
-/
import Aggregator.Exchanges.Common

namespace Aggregator.Exchanges.Okx

open Aggregator.Go Aggregator.Normalizers Aggregator.Scheduler

/-! ## Responses -/

structure Envelope where
  code : String := ""
  msg : String := ""
  data : Option Json := none

def Envelope.fields : List (StructField Envelope) :=
  [.string "code" (·.code) fun s x => { s with code := x },
   .string "msg" (·.msg) fun s x => { s with msg := x },
   .raw "data" (·.data) fun s x => { s with data := x }]

structure TickerRecord where
  instID : String := ""
  last : String := ""
  bidPx : String := ""
  askPx : String := ""
  vol24h : String := ""
  volCcy24h : String := ""
  change24h : String := ""
  markPx : String := ""
  indexPx : String := ""
  fundingRate : String := ""
  openInterest : String := ""
  timestamp : String := ""

def TickerRecord.fields : List (StructField TickerRecord) :=
  [.string "instId" (·.instID) fun s x => { s with instID := x },
   .string "last" (·.last) fun s x => { s with last := x },
   .string "bidPx" (·.bidPx) fun s x => { s with bidPx := x },
   .string "askPx" (·.askPx) fun s x => { s with askPx := x },
   .string "vol24h" (·.vol24h) fun s x => { s with vol24h := x },
   .string "volCcy24h" (·.volCcy24h) fun s x => { s with volCcy24h := x },
   .string "change24h" (·.change24h) fun s x => { s with change24h := x },
   .string "markPx" (·.markPx) fun s x => { s with markPx := x },
   .string "idxPx" (·.indexPx) fun s x => { s with indexPx := x },
   .string "fundingRate" (·.fundingRate) fun s x => { s with fundingRate := x },
   .string "oi" (·.openInterest) fun s x => { s with openInterest := x },
   .string "ts" (·.timestamp) fun s x => { s with timestamp := x }]

structure OpenInterestRecord where
  oi : String := ""
  oiCcy : String := ""
  ts : String := ""

def OpenInterestRecord.fields : List (StructField OpenInterestRecord) :=
  [.string "oi" (·.oi) fun s x => { s with oi := x },
   .string "oiCcy" (·.oiCcy) fun s x => { s with oiCcy := x },
   .string "ts" (·.ts) fun s x => { s with ts := x }]

structure OrderbookRecord where
  asks : List (List String) := []
  bids : List (List String) := []
  ts : String := ""

def OrderbookRecord.fields : List (StructField OrderbookRecord) :=
  [.strings "asks" (·.asks) fun s x => { s with asks := x },
   .strings "bids" (·.bids) fun s x => { s with bids := x },
   .string "ts" (·.ts) fun s x => { s with ts := x }]

structure LiquidationRecord where
  instID : String := ""
  posSide : String := ""
  bkPx : String := ""
  sz : String := ""
  ts : String := ""

def LiquidationRecord.fields : List (StructField LiquidationRecord) :=
  [.string "instId" (·.instID) fun s x => { s with instID := x },
   .string "posSide" (·.posSide) fun s x => { s with posSide := x },
   .string "bkPx" (·.bkPx) fun s x => { s with bkPx := x },
   .string "sz" (·.sz) fun s x => { s with sz := x },
   .string "ts" (·.ts) fun s x => { s with ts := x }]

/-! ## What is read from a body -/

/-- The data of an envelope without an error. -/
def readEnvelope (body : Option Json) : Outcome (Option Json) := do
  let payload ← unmarshal body (Json.decodeStruct Envelope.fields {}) "parse okx response"
  let code := payload.code
  let msg := payload.msg
  if code ≠ "" ∧ code ≠ "0" then fail s!"{errExchangeResponse}: okx code={code} msg={msg}"
  if payload.data.isNone then fail "okx response data is empty"
  return payload.data

/-- `[][9]any`. -/
def readKlines (data : Option Json) : Outcome (List (List Json)) :=
  unmarshal data (Json.decodeSlice (Json.decodeArray 9)) "parse okx klines"

/-- The first of the order books. -/
def readOrderbook (data : Option Json) : Outcome OrderbookRecord := do
  let records ← unmarshal data (Json.decodeSlice (Json.decodeStruct OrderbookRecord.fields {}))
    "parse okx orderbook"
  match records with
  | [] => fail "okx orderbook data is empty"
  | ob :: _ => return ob

def readLiquidations (data : Option Json) : Outcome (List LiquidationRecord) :=
  unmarshal data (Json.decodeSlice (Json.decodeStruct LiquidationRecord.fields {}))
    "parse okx liquidation"

/-! ## Normalizers -/

section
variable (pf : ParseFloat) (data : Option Json) (resp : ExchangeResponse) (job : Job)
  (symbol : Symbol)

def normalizeTicker : Outcome NormalizedResult := do
  let records ← unmarshal data (Json.decodeSlice (Json.decodeStruct TickerRecord.fields {}))
    "parse okx ticker"
  match records with
  | [] => fail "okx ticker data is empty"
  | item :: _ =>
    let snapshotTime ← checked ((millisToTime (.str item.timestamp)).mapError
      fun err => s!"parse okx timestamp: {err}")
    tickerResult pf
      { exchange := "okx"
        snapshotTime := snapshotTime
        lastPrice := .str item.last
        markPrice := .str item.markPx
        indexPrice := .str item.indexPx
        bidPrice := .str item.bidPx
        askPrice := .str item.askPx
        volume24h := .str item.vol24h
        quoteVolume24h := .str item.volCcy24h
        priceChangePercent24h := .str item.change24h
        openInterest := .str item.openInterest
        fundingRate := .str item.fundingRate
        rawData := some (Json.encodeStruct TickerRecord.fields item) }
      resp job symbol

/-- A candle is closed if its last element says so, or says nothing. -/
def isClosed (k : List Json) : Bool :=
  match elem k 8 with
  | .dec confirm => confirm = 1
  | .str confirm => confirm = "1"
  | _ => true

def kline (k : List Json) : NormalizedKline where
  toSourceMeta := sourceMeta "okx" job symbol
  interval := job.period
  openTime := mustTime (millisToTime (elem k 0))
  closeTime := mustTime (millisToTime (elem k 0))
  openPrice := parseFloatSafe pf (elem k 1)
  highPrice := parseFloatSafe pf (elem k 2)
  lowPrice := parseFloatSafe pf (elem k 3)
  closePrice := parseFloatSafe pf (elem k 4)
  volume := floatPtrSafe pf (elem k 5)
  quoteVolume := floatPtrSafe pf (elem k 7)
  tradeCount := none
  takerBuyVolume := none
  takerBuyQuoteVolume := none
  isClosed := isClosed k

def normalizeKline : Outcome NormalizedResult := do
  let klines ← readKlines data
  return { klines := emit validateKline (klines.map (kline pf job symbol)) }

def normalizeOpenInterest : Outcome NormalizedResult := do
  let records ← unmarshal data (Json.decodeSlice (Json.decodeStruct OpenInterestRecord.fields {}))
    "parse okx open interest"
  match records with
  | [] => fail "okx open interest data is empty"
  | item :: _ =>
    openInterestResult "okx" (mustTime (millisToTime (.str item.ts)))
      (parseFloatSafe pf (.str item.oi)) job symbol

def longShortRatio (item : List Json) : NormalizedLongShortRatio :=
  let longRatio := floatPtrSafe pf (elem item 1)
  let shortRatio := floatPtrSafe pf (elem item 2)
  { toSourceMeta := sourceMeta "okx" job symbol
    period := job.period
    snapshotTime := mustTime (millisToTime (elem item 0))
    longRatio := longRatio
    shortRatio := shortRatio
    longAccountRatio := none
    shortAccountRatio := none
    longShortRatio := longShort longRatio shortRatio }

def normalizeLongShortRatio : Outcome NormalizedResult := do
  let items ← unmarshal data (Json.decodeSlice (Json.decodeArray 3)) "parse okx long/short ratio"
  let ratios := items.map (longShortRatio pf job symbol)
  return { longShortRatios := emit validateLongShortRatio ratios }

def normalizeTakerFlow : Outcome NormalizedResult := do
  let items ← unmarshal data (Json.decodeSlice (Json.decodeArray 3)) "parse okx taker flow"
  let flows := items.map fun item => takerFlow pf "okx" (mustTime (millisToTime (elem item 0)))
    (elem item 2) (elem item 1) job symbol
  return { takerFlows := emit validateTakerFlow flows }

def normalizeOrderbook : Outcome NormalizedResult := do
  let ob ← readOrderbook data
  let snapshotTime := if ob.ts ≠ "" then mustTime (millisToTime (.str ob.ts)) else resp.capturedAt
  orderbookResult (parseFloatSafe pf ∘ .str) "okx" ob.bids ob.asks snapshotTime job symbol

/-- The side of the order that closes a position. -/
def side (item : LiquidationRecord) : String := if item.posSide = "long" then "SELL" else "BUY"

def liquidation (item : LiquidationRecord) : NormalizedLiquidationEvent :=
  liquidationEvent "okx" (eventKey item.instID (side item) item.ts)
    (mustTime (millisToTime (.str item.ts))) (side item) (floatPtrSafe pf (.str item.bkPx))
    (floatPtrSafe pf (.str item.sz)) job symbol

/-- The aggregate is checked, too. -/
def normalizeLiquidation : Outcome NormalizedResult := do
  let items ← readLiquidations data
  let result := liquidationResult "okx" (fun event => event.side = "SELL")
    (items.map (liquidation pf job symbol)) resp job symbol
  let aggregates := emit validateLiquidationAggregate result.liquidationAggregates
  return { result with liquidationAggregates := aggregates }

def normalize (dataType : String) : Outcome NormalizedResult := do
  let data ← readEnvelope resp.body
  match dataType with
  | "ticker" | "mark_price" | "funding" => normalizeTicker pf data resp job symbol
  | "kline" => normalizeKline pf data job symbol
  | "open_interest" => normalizeOpenInterest pf data job symbol
  | "long_short_ratio" => normalizeLongShortRatio pf data job symbol
  | "taker_flow" => normalizeTakerFlow pf data job symbol
  | "orderbook" | "orderbook_imbalance" => normalizeOrderbook pf data resp job symbol
  | "liquidation" => normalizeLiquidation pf data resp job symbol
  | _ => fail errUnsupportedDataType

end

end Aggregator.Exchanges.Okx
