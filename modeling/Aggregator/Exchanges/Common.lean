/-
  What the exchange adapters share (`internal/exchanges/common`, and the
  functions that each adapter repeats).

  `Normalize` returns a result or an error, or it panics; the three are told
  apart by `Failure`.  A body is `none` where it is no JSON.  The texts of the
  errors of `encoding/json` are not modelled.  Of an `any`, `Json.int` is an
  `int64` and `Json.dec` a `float64`; `pf` is `strconv.ParseFloat`.

  The adapters repeat the code for order books, flows and liquidations with
  other field names; it stands here once.
-/
import Aggregator.Go.Decode
import Aggregator.Normalizers.Market
import Aggregator.Scheduler.Models

namespace Aggregator.Exchanges

open Aggregator.Go Aggregator.Normalizers Aggregator.Scheduler

inductive Failure
  | error (text : String)
  | panic (text : String)
deriving DecidableEq, Repr

structure ExchangeResponse where
  body : Option Json
  capturedAt : ℤ

structure Symbol where
  id : ℤ
deriving DecidableEq, Repr

abbrev Outcome (α : Type) := Except Failure α

def fail {α : Type} (text : String) : Outcome α := .error (.error text)

/-- A call whose error is returned as it is. -/
def checked {α : Type} (m : Except String α) : Outcome α := m.mapError .error

def errUnsupportedDataType : String := "unsupported data type"

def errExchangeResponse : String := "exchange response error"

/-- `json.Unmarshal`, with the text that is put before its error. -/
def unmarshal {α : Type} (raw : Option Json) (decode : Json → Option α) (context : String) :
    Outcome α :=
  match raw.bind decode with
  | some a => .ok a
  | none => fail s!"{context}: json"

def sourceMeta (exchange : String) (job : Job) (symbol : Symbol) : SourceMeta :=
  ⟨symbol.id, exchange, job.sourceSymbol⟩

/-- An element of an array, or of a slice that is known to be long enough. -/
def elem (k : List Json) (i : ℕ) : Json := k.getD i .null

/-! ## Numbers and times (`parse.go`) -/

/-- `%T`. -/
def goType : Json → String
  | .null => "<nil>"
  | .bool _ => "bool"
  | .int _ => "int64"
  | .dec _ => "float64"
  | .str _ => "string"
  | .arr _ => "[]interface \x7b\x7d"
  | .obj _ => "map[string]interface \x7b\x7d"

section
variable (pf : ParseFloat)

def parseFloat (value : Json) : ℚ × Option String :=
  match value with
  | .str s =>
    let s := trimSpace s
    if s = "" then (0, some "empty numeric string") else pf s
  | .dec q => (q, none)
  | .int n => (roundFloat64 n, none)
  | v =>
    let type := goType v
    (0, some s!"unsupported numeric type {type}")

def floatPtr (value : Json) : Except String (Option ℚ) :=
  let parsed := match parseFloat pf value with
    | (q, none) => .ok (some q)
    | (_, some err) => .error err
  match value with
  | .null => .ok none
  | .str s => if trimSpace s = "" then .ok none else parsed
  | _ => parsed

def parseFloatSafe (value : Json) : ℚ := (parseFloat pf value).1

def floatPtrSafe (value : Json) : Option ℚ :=
  match floatPtr pf value with
  | .ok p => p
  | .error _ => none

end

/-- `MillisToTime` and `SecondsToTime`. -/
def toTime (unit : String) (ofInt : ℤ → ℤ) (value : Json) : Except String ℤ :=
  match value with
  | .str s => (parseInt (trimSpace s)).map ofInt
  | .dec q => .ok (ofInt (float64ToInt64 q))
  | .int n => .ok (ofInt n)
  | v =>
    let type := goType v
    .error s!"unsupported {unit} type {type}"

def millisToTime : Json → Except String ℤ := toTime "millis" unixMilli

def secondsToTime : Json → Except String ℤ := toTime "seconds" unixSeconds

/-- `MustTime`: the zero time in place of an error. -/
def mustTime (m : Except String ℤ) : ℤ :=
  match m with
  | .ok t => t
  | .error _ => 0

/-! ## Market snapshots (`market_snapshot.go`) -/

structure MarketSnapshotInput where
  exchange : String
  snapshotTime : ℤ
  lastPrice : Json
  markPrice : Json
  indexPrice : Json
  bidPrice : Json
  askPrice : Json
  volume24h : Json
  quoteVolume24h : Json
  priceChangePercent24h : Json := .null
  openInterest : Json
  fundingRate : Json
  rawData : Option Json := none

def marketSnapshot (pf : ParseFloat) (input : MarketSnapshotInput) (resp : ExchangeResponse)
    (job : Job) (symbol : Symbol) : Except String NormalizedMarketSnapshot := do
  if isZero input.snapshotTime then .error "missing snapshot_time"
  let number (name : String) (value : Json) : Except String (Option ℚ) :=
    (floatPtr pf value).mapError fun err => s!"{name}: {err}"
  let lastPrice ← number "last_price" input.lastPrice
  let markPrice ← number "mark_price" input.markPrice
  let indexPrice ← number "index_price" input.indexPrice
  let bidPrice ← number "bid_price" input.bidPrice
  let askPrice ← number "ask_price" input.askPrice
  let volume ← number "volume_24h" input.volume24h
  let quoteVolume ← number "quote_volume_24h" input.quoteVolume24h
  let priceChange ← number "price_change_percent_24h" input.priceChangePercent24h
  let openInterest ← number "open_interest" input.openInterest
  let fundingRate ← number "funding_rate" input.fundingRate
  let snapshot : NormalizedMarketSnapshot :=
    { toSourceMeta := sourceMeta input.exchange job symbol
      rawData := input.rawData.or resp.body
      snapshotTime := input.snapshotTime
      lastPrice := lastPrice
      markPrice := markPrice
      indexPrice := indexPrice
      bidPrice := bidPrice
      askPrice := askPrice
      volume24h := volume
      quoteVolume24h := quoteVolume
      priceChangePercent24h := priceChange
      openInterest := openInterest
      fundingRate := fundingRate }
  validateMarketSnapshot snapshot
  return snapshot

/-- The result with one market snapshot. -/
def tickerResult (pf : ParseFloat) (input : MarketSnapshotInput) (resp : ExchangeResponse)
    (job : Job) (symbol : Symbol) : Outcome NormalizedResult := do
  let snapshot ← checked (marketSnapshot pf input resp job symbol)
  return { marketSnapshots := [snapshot] }

/-! ## Rows -/

/-- The loop that appends the rows that pass their check and skips the others. -/
def emit {ρ : Type} (validate : ρ → Except String Unit) (rows : List ρ) : List ρ :=
  rows.filter fun row => (validate row).isOk

/-- The result with one open interest. -/
def openInterestResult (exchange : String) (snapshotTime : ℤ) (openInterest : ℚ) (job : Job)
    (symbol : Symbol) : Outcome NormalizedResult := do
  let item : NormalizedOpenInterest :=
    { toSourceMeta := sourceMeta exchange job symbol
      snapshotTime := snapshotTime
      period := ""
      openInterest := openInterest }
  checked (validateOpenInterest item false)
  return { openInterest := [item] }

/-- The taker flow of a buy and a sell volume. -/
def takerFlow (pf : ParseFloat) (exchange : String) (snapshotTime : ℤ) (buy sell : Json)
    (job : Job) (symbol : Symbol) : NormalizedTakerFlow :=
  let buyVol := parseFloatSafe pf buy
  let sellVol := parseFloatSafe pf sell
  { toSourceMeta := sourceMeta exchange job symbol
    period := job.period
    snapshotTime := snapshotTime
    takerBuyVolume := floatPtrSafe pf buy
    takerSellVolume := floatPtrSafe pf sell
    takerBuyQuoteVolume := none
    takerSellQuoteVolume := none
    buySellDelta := some (buyVol - sellVol)
    buySellDeltaQuote := none
    buySellRatio := if sellVol ≠ 0 then some (buyVol / sellVol) else none }

/-- The ratio where both values are there. -/
def longShort (long short : Option ℚ) : Option ℚ :=
  match long, short with
  | some l, some s => if s ≠ 0 then some (l / s) else none
  | _, _ => none

/-- The ratio where only the short value is looked at before both are read. -/
def longShortUnchecked (long short : Option ℚ) : Outcome (Option ℚ) :=
  match short with
  | none => .ok none
  | some s =>
    if s ≠ 0 then match long with
      | some l => .ok (some (l / s))
      | none => .error (.panic "invalid memory address or nil pointer dereference")
    else .ok none

/-! ## Order books -/

section
variable {α : Type} (price : α → ℚ)

def calcOBNotional (levels : List (List α)) : ℚ :=
  levels.foldl (fun total lvl => match lvl with
    | p :: size :: _ => total + price p * price size
    | _ => total) 0

/-- `levels[0][0]`. -/
def bestPrice (levels : List (List α)) : Outcome ℚ :=
  match levels with
  | (p :: _) :: _ => .ok (price p)
  | _ => .error (.panic "index out of range [0] with length 0")

/-- The best prices, read if there are levels on both sides. -/
def bestPrices (bids asks : List (List α)) : Outcome (Option (ℚ × ℚ)) :=
  if bids ≠ [] ∧ asks ≠ [] then do
    let bestBid ← bestPrice price bids
    let bestAsk ← bestPrice price asks
    return some (bestBid, bestAsk)
  else .ok none

/-- The result with one order book. -/
def orderbookResult (exchange : String) (bids asks : List (List α)) (snapshotTime : ℤ) (job : Job)
    (symbol : Symbol) : Outcome NormalizedResult := do
  let bidNotional := calcOBNotional price bids
  let askNotional := calcOBNotional price asks
  let best ← bestPrices price bids asks
  let midPrice := best.bind fun (bestBid, bestAsk) =>
    if 0 < bestAsk then some ((bestBid + bestAsk) / 2) else none
  let spreadBPS := best.bind fun (bestBid, bestAsk) =>
    midPrice.bind fun mid => if 0 < mid then some ((bestAsk - bestBid) / mid * 10000) else none
  let obi : NormalizedOrderbookImbalance :=
    { toSourceMeta := sourceMeta exchange job symbol
      snapshotTime := snapshotTime
      depthLevels := 10
      midPrice := midPrice
      spreadBPS := spreadBPS
      bidNotional := some bidNotional
      askNotional := some askNotional
      imbalanceRatio := if 0 < bidNotional + askNotional then
        some ((bidNotional - askNotional) / (bidNotional + askNotional)) else none }
  checked (validateOrderbookImbalance obi)
  return { orderbookImbalances := [obi] }

end

/-! ## Liquidations -/

/-- The key of an event: `%s-%s-%s` or `%s-%s-%d`. -/
def eventKey (symbol side time : String) : String := s!"{symbol}-{side}-{time}"

/-- An event; its value is there twice. -/
def liquidationEvent (exchange eventKey : String) (eventTime : ℤ) (side : String)
    (price quantity : Option ℚ) (job : Job) (symbol : Symbol) : NormalizedLiquidationEvent :=
  let notional := match price, quantity with
    | some p, some q => p * q
    | _, _ => 0
  { toSourceMeta := sourceMeta exchange job symbol
    eventKey := eventKey
    eventTime := eventTime
    side := side
    price := price
    quantity := quantity
    notional := some notional
    usdValue := some notional
    orderID := ""
    tradeID := "" }

/-- An event added to the aggregate of the bucket; `long` says on which side. -/
def addLiquidation (long : NormalizedLiquidationEvent → Bool)
    (agg : NormalizedLiquidationAggregate) (event : NormalizedLiquidationEvent) :
    NormalizedLiquidationAggregate :=
  let notional := event.notional.getD 0
  let agg := { agg with
    totalLiquidationNotional := agg.totalLiquidationNotional + notional
    totalLiquidationUSD := agg.totalLiquidationUSD + notional
    largestLiquidationUSD := if agg.largestLiquidationUSD < notional then notional
      else agg.largestLiquidationUSD }
  if long event then { agg with
    longLiquidationCount := agg.longLiquidationCount + 1
    longLiquidationNotional := agg.longLiquidationNotional + notional
    longLiquidationUSD := agg.longLiquidationUSD + notional }
  else { agg with
    shortLiquidationCount := agg.shortLiquidationCount + 1
    shortLiquidationNotional := agg.shortLiquidationNotional + notional
    shortLiquidationUSD := agg.shortLiquidationUSD + notional }

/-- The aggregate of the five minutes in which the response was captured. -/
def emptyAggregate (exchange : String) (resp : ExchangeResponse) (job : Job) (symbol : Symbol) :
    NormalizedLiquidationAggregate :=
  { toSourceMeta := sourceMeta exchange job symbol
    period := "5m"
    bucketTime := truncate resp.capturedAt (5 * minute)
    longLiquidationCount := 0
    shortLiquidationCount := 0
    longLiquidationNotional := 0
    shortLiquidationNotional := 0
    totalLiquidationNotional := 0
    longLiquidationUSD := 0
    shortLiquidationUSD := 0
    totalLiquidationUSD := 0
    largestLiquidationUSD := 0 }

/-- The events that pass their check and, if there is one, their aggregate. -/
def liquidationResult (exchange : String) (long : NormalizedLiquidationEvent → Bool)
    (events : List NormalizedLiquidationEvent) (resp : ExchangeResponse) (job : Job)
    (symbol : Symbol) : NormalizedResult :=
  let events := emit validateLiquidationEvent events
  { liquidationEvents := events
    liquidationAggregates := if events = [] then [] else
      [events.foldl (addLiquidation long) (emptyAggregate exchange resp job symbol)] }

end Aggregator.Exchanges
