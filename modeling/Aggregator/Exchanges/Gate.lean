/-
  The adapter of gate (`internal/exchanges/gate/adapter.go`).

  Except for tickers, order books and liquidations a response is a list of
  rows; rows that are too short are skipped.
-/
import Aggregator.Exchanges.Common

namespace Aggregator.Exchanges.Gate

open Aggregator.Go Aggregator.Normalizers Aggregator.Scheduler

/-! ## Responses -/

structure ErrorEnvelope where
  label : String := ""
  message : String := ""

def ErrorEnvelope.fields : List (StructField ErrorEnvelope) :=
  [.string "label" (·.label) fun s x => { s with label := x },
   .string "message" (·.message) fun s x => { s with message := x }]

structure TickerRecord where
  contract : String := ""
  last : String := ""
  markPrice : String := ""
  indexPrice : String := ""
  bidPrice : String := ""
  askPrice : String := ""
  volumeBase24h : String := ""
  volumeQuote24h : String := ""
  changePercentage : String := ""
  openInterest : String := ""
  fundingRate : String := ""

def TickerRecord.fields : List (StructField TickerRecord) :=
  [.string "contract" (·.contract) fun s x => { s with contract := x },
   .string "last" (·.last) fun s x => { s with last := x },
   .string "mark_price" (·.markPrice) fun s x => { s with markPrice := x },
   .string "index_price" (·.indexPrice) fun s x => { s with indexPrice := x },
   .string "highest_bid" (·.bidPrice) fun s x => { s with bidPrice := x },
   .string "lowest_ask" (·.askPrice) fun s x => { s with askPrice := x },
   .string "volume_24h_base" (·.volumeBase24h) fun s x => { s with volumeBase24h := x },
   .string "volume_24h_quote" (·.volumeQuote24h) fun s x => { s with volumeQuote24h := x },
   .string "change_percentage" (·.changePercentage) fun s x => { s with changePercentage := x },
   .string "total_size" (·.openInterest) fun s x => { s with openInterest := x },
   .string "funding_rate" (·.fundingRate) fun s x => { s with fundingRate := x }]

structure OrderbookResponse where
  id : ℤ := 0
  asks : List (List String) := []
  bids : List (List String) := []

def OrderbookResponse.fields : List (StructField OrderbookResponse) :=
  [.int "id" (·.id) fun s x => { s with id := x },
   .strings "asks" (·.asks) fun s x => { s with asks := x },
   .strings "bids" (·.bids) fun s x => { s with bids := x }]

structure LiquidationItem where
  contract : String := ""
  size : ℚ := 0
  price : String := ""
  left : ℚ := 0
  time : ℤ := 0

def LiquidationItem.fields : List (StructField LiquidationItem) :=
  [.string "contract" (·.contract) fun s x => { s with contract := x },
   .float "size" (·.size) fun s x => { s with size := x },
   .string "price" (·.price) fun s x => { s with price := x },
   .float "left" (·.left) fun s x => { s with left := x },
   .int "time" (·.time) fun s x => { s with time := x }]

/-! ## What is read from a body -/

/-- `[][]any`, without the rows with less than `n` elements. -/
def readRows (body : Option Json) (n : ℕ) (context : String) : Outcome (List (List Json)) := do
  let rows ← unmarshal body (Json.decodeSlice (Json.decodeSlice Json.decodeAny)) context
  return rows.filter fun row => n ≤ row.length

def readKlines (body : Option Json) : Outcome (List (List Json)) :=
  readRows body 6 "parse gate klines"

def readOrderbook (body : Option Json) : Outcome OrderbookResponse :=
  unmarshal body (Json.decodeStruct OrderbookResponse.fields {}) "parse gate orderbook"

def readLiquidations (body : Option Json) : Outcome (List LiquidationItem) :=
  unmarshal body (Json.decodeSlice (Json.decodeStruct LiquidationItem.fields {}))
    "parse gate liquidation"

/-! ## Normalizers -/

section
variable (pf : ParseFloat) (resp : ExchangeResponse) (job : Job) (symbol : Symbol)

def tickerInput (item : TickerRecord) : MarketSnapshotInput where
  exchange := "gate"
  snapshotTime := resp.capturedAt
  lastPrice := .str item.last
  markPrice := .str item.markPrice
  indexPrice := .str item.indexPrice
  bidPrice := .str item.bidPrice
  askPrice := .str item.askPrice
  volume24h := .str item.volumeBase24h
  quoteVolume24h := .str item.volumeQuote24h
  priceChangePercent24h := .str item.changePercentage
  openInterest := .str item.openInterest
  fundingRate := .str item.fundingRate
  rawData := some (Json.encodeStruct TickerRecord.fields item)

def normalizeTicker : Outcome NormalizedResult := do
  match resp.body.bind (Json.decodeStruct ErrorEnvelope.fields {}) with
  | some ⟨label, message⟩ =>
    if label ≠ "" then fail s!"{errExchangeResponse}: gate label={label} msg={message}"
  | none => pure ()
  let items ← unmarshal resp.body (Json.decodeSlice (Json.decodeStruct TickerRecord.fields {}))
    "parse gate ticker"
  match items with
  | [] => fail "gate response data is empty"
  | item :: _ => tickerResult pf (tickerInput resp item) resp job symbol

/-- The time of a row. -/
def rowTime (row : List Json) : ℤ := mustTime (secondsToTime (elem row 0))

def kline (row : List Json) : NormalizedKline where
  toSourceMeta := sourceMeta "gate" job symbol
  interval := job.period
  openTime := rowTime row
  closeTime := rowTime row
  openPrice := parseFloatSafe pf (elem row 5)
  highPrice := parseFloatSafe pf (elem row 3)
  lowPrice := parseFloatSafe pf (elem row 4)
  closePrice := parseFloatSafe pf (elem row 2)
  volume := floatPtrSafe pf (elem row 1)
  quoteVolume := none
  tradeCount := none
  takerBuyVolume := none
  takerBuyQuoteVolume := none
  isClosed := true

def normalizeKline : Outcome NormalizedResult := do
  let rows ← readKlines resp.body
  return { klines := emit validateKline (rows.map (kline pf job symbol)) }

def openInterest (row : List Json) : NormalizedOpenInterest where
  toSourceMeta := sourceMeta "gate" job symbol
  period := job.period
  snapshotTime := rowTime row
  openInterest := parseFloatSafe pf (elem row 1)

def normalizeOpenInterest : Outcome NormalizedResult := do
  let rows ← readRows resp.body 2 "parse gate open interest"
  let items := rows.map (openInterest pf job symbol)
  return { openInterest := emit (validateOpenInterest · true) items }

def longShortRatio (row : List Json) : NormalizedLongShortRatio :=
  let longRatio := floatPtrSafe pf (elem row 3)
  let shortRatio := floatPtrSafe pf (elem row 4)
  { toSourceMeta := sourceMeta "gate" job symbol
    period := job.period
    snapshotTime := rowTime row
    longRatio := none
    shortRatio := none
    longAccountRatio := longRatio
    shortAccountRatio := shortRatio
    longShortRatio := longShort longRatio shortRatio }

def normalizeLongShortRatio : Outcome NormalizedResult := do
  let rows ← readRows resp.body 5 "parse gate long/short ratio"
  let ratios := rows.map (longShortRatio pf job symbol)
  return { longShortRatios := emit validateLongShortRatio ratios }

def normalizeTakerFlow : Outcome NormalizedResult := do
  let rows ← readRows resp.body 7 "parse gate taker flow"
  let flows := rows.map fun row => takerFlow pf "gate" (rowTime row) (elem row 5) (elem row 6)
    job symbol
  return { takerFlows := emit validateTakerFlow flows }

def normalizeOrderbook : Outcome NormalizedResult := do
  let ob ← readOrderbook resp.body
  orderbookResult (parseFloatSafe pf ∘ .str) "gate" ob.bids ob.asks resp.capturedAt job symbol

/-- The side of the order that closes a position of this size. -/
def side (item : LiquidationItem) : String := if 0 < item.size then "SELL" else "BUY"

def liquidation (item : LiquidationItem) : NormalizedLiquidationEvent :=
  liquidationEvent "gate" (eventKey item.contract (side item) (toString item.time))
    (unixSeconds item.time) (side item) (floatPtrSafe pf (.str item.price))
    (some (if item.size < 0 then -item.size else item.size)) job symbol

def normalizeLiquidation : Outcome NormalizedResult := do
  let items ← readLiquidations resp.body
  return liquidationResult "gate" (fun event => event.side = "SELL")
    (items.map (liquidation pf job symbol)) resp job symbol

def basisPremium (row : List Json) : NormalizedBasisPremium where
  toSourceMeta := sourceMeta "gate" job symbol
  snapshotTime := rowTime row
  basis := floatPtrSafe pf (elem row 2)
  basisPercent := none
  annualizedBasisPercent := none

def normalizeBasis : Outcome NormalizedResult := do
  let rows ← readRows resp.body 3 "parse gate basis"
  return { basisPremiums := emit validateBasisPremium (rows.map (basisPremium pf job symbol)) }

def normalize (dataType : String) : Outcome NormalizedResult :=
  match dataType with
  | "ticker" | "mark_price" | "index_price" | "funding" => normalizeTicker pf resp job symbol
  | "kline" => normalizeKline pf resp job symbol
  | "open_interest" => normalizeOpenInterest pf resp job symbol
  | "long_short_ratio" => normalizeLongShortRatio pf resp job symbol
  | "taker_flow" => normalizeTakerFlow pf resp job symbol
  | "orderbook" | "orderbook_imbalance" => normalizeOrderbook pf resp job symbol
  | "liquidation" => normalizeLiquidation pf resp job symbol
  | "basis" => normalizeBasis pf resp job symbol
  | _ => fail errUnsupportedDataType

end

end Aggregator.Exchanges.Gate
