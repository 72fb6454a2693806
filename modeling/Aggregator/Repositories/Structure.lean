/-
  The structure of the market of a symbol (`internal/repositories/aggregate_analytics.go`:
  `loadAggregateCandles`, `filterCandles`, `computeMarketStructure`,
  `BuildMarketStructureSnapshots`; `aggregate_options.go`).

  A candle of the symbol is made of the klines of all exchanges at one time: the
  greatest high, the smallest low, and the average open and close.  The snapshot of
  a window has the greatest high and the smallest low of its candles, and the
  position of the last close between them.

  * `swingLow_le_iff`, `le_swingHigh_iff`: what the loop over the candles computes;
  * `candleAt_low_le_iff`, `le_candleAt_high_iff`: the same in terms of the klines;
  * `computeMarketStructure_sane_iff`: the last close lies between the swings exactly
    if some candle has a low below it and some candle a high above it;
  * `marketStructure_sane`: klines whose close lies between low and high are enough.
-/
import Aggregator.Lib.Mean
import Aggregator.Repositories.DataGaps
import Aggregator.Repositories.Windows

namespace Aggregator.Repositories

open Aggregator.Go Aggregator.Normalizers

/-! ## Windows -/

structure AggregationWindow where
  label : String
  duration : ℤ
deriving DecidableEq, Repr

def defaultAggregationWindows : List AggregationWindow :=
  [⟨"5m", 5 * minute⟩, ⟨"15m", 15 * minute⟩, ⟨"1h", hour⟩, ⟨"4h", 4 * hour⟩, ⟨"24h", 24 * hour⟩]

/-- The windows of the options, after `normalizeAggregateOptions`. -/
def aggregationWindows (windows : List AggregationWindow) : List AggregationWindow :=
  if windows.isEmpty then defaultAggregationWindows else windows

/-! ## Candles -/

structure AggregateCandle where
  openTime : ℤ
  openPrice : ℚ
  high : ℚ
  low : ℚ
  close : ℚ
deriving DecidableEq, Repr

/-- The `WHERE` of the query. -/
def candleRow (raw : KlineKey → Json) (symbolID start stop : ℤ) (k : NormalizedKline) : Bool :=
  k.symbolID = symbolID && k.interval = "5m" && start ≤ k.openTime && k.openTime ≤ stop &&
    k.isClosed && 0 < k.openPrice && 0 < k.highPrice && 0 < k.lowPrice && 0 < k.closePrice &&
    !statusLeftOut (raw (klineKey k))

def candleRows (raw : KlineKey → Json) (klines : KlineTable) (symbolID start stop : ℤ) :
    List NormalizedKline :=
  klines.rows.filter (candleRow raw symbolID start stop)

/-- `AVG`. -/
def average (prices : List ℚ) : ℚ := prices.sum / prices.length

/-- A group of `GROUP BY open_time`. -/
def candleAt (rows : List NormalizedKline) (openTime : ℤ) : AggregateCandle :=
  let group := rows.filter fun k => k.openTime = openTime
  { openTime := openTime
    openPrice := average (group.map (·.openPrice))
    high := (group.map (·.highPrice)).max?.getD 0
    low := (group.map (·.lowPrice)).min?.getD 0
    close := average (group.map (·.closePrice)) }

def loadAggregateCandles (raw : KlineKey → Json) (klines : KlineTable) (symbolID start stop : ℤ) :
    List AggregateCandle :=
  let rows := candleRows raw klines symbolID start stop
  ((rows.map fun k => k.openTime).dedup.insertionSort (· ≤ ·)).map (candleAt rows)

def filterCandles (candles : List AggregateCandle) (start stop : ℤ) : List AggregateCandle :=
  candles.filter fun c => (c.openTime = start || start < c.openTime) &&
    (c.openTime = stop || c.openTime < stop)

/-! ## Levels -/

/-- The loop of `uniqueRounded`, with the levels found so far. -/
def uniqueRoundedFrom (limit : ℕ) (result : List ℚ) : List ℚ → List ℚ
  | [] => result
  | value :: values =>
    if result.getLast?.any fun level => |level - value| < 1 / 10 ^ 9 then
      uniqueRoundedFrom limit result values
    else if (result ++ [value]).length = limit then result ++ [value]
    else uniqueRoundedFrom limit (result ++ [value]) values

def uniqueRounded (values : List ℚ) (limit : ℕ) : List ℚ := uniqueRoundedFrom limit [] values

def supportLevels (candles : List AggregateCandle) (limit : ℕ) : List ℚ :=
  uniqueRounded ((candles.map (·.low)).insertionSort (· ≤ ·)) limit

def resistanceLevels (candles : List AggregateCandle) (limit : ℕ) : List ℚ :=
  uniqueRounded ((candles.map (·.high)).insertionSort (· ≥ ·)) limit

/-! ## `computeMarketStructure` -/

inductive TrendDirection
  | unknown | bullish | bearish | sideways
deriving DecidableEq, Repr

inductive StructureState
  | unknown | compression | expansion | ranging
deriving DecidableEq, Repr

structure MarketStructureSnapshot where
  symbolID : ℤ
  exchange : String
  period : String
  snapshotTime : ℤ
  trendDirection : TrendDirection := .unknown
  structureState : StructureState := .unknown
  lastSwingHigh : Option ℚ := none
  lastSwingLow : Option ℚ := none
  supportLevels : List ℚ := []
  resistanceLevels : List ℚ := []
  pricePosition : Option ℚ := none
  metadata : Json

/-- The loop over the candles, for the greatest high. -/
def swingHigh (first : ℚ) (candles : List AggregateCandle) : ℚ :=
  candles.foldl (fun high c => if c.high > high then c.high else high) first

/-- The loop over the candles, for the smallest low. -/
def swingLow (first : ℚ) (candles : List AggregateCandle) : ℚ :=
  candles.foldl (fun low c => if c.low < low then c.low else low) first

def trendOf (priceChangePct : ℚ) : TrendDirection :=
  if priceChangePct > 2 / 10 then .bullish
  else if priceChangePct < -2 / 10 then .bearish
  else .sideways

def stateOf (priceChangePct rangePct : ℚ) : StructureState :=
  if rangePct < 1 then .compression
  else if rangePct > 5 ∨ |priceChangePct| > 3 then .expansion
  else .ranging

def computeMarketStructure (symbolID : ℤ) (period : String) (snapshotTime : ℤ) :
    List AggregateCandle → MarketStructureSnapshot
  | first :: next :: rest =>
    let candles := first :: next :: rest
    let last := rest.getLastD next
    let high := swingHigh first.high candles
    let low := swingLow first.low candles
    let priceChangePct :=
      if first.close ≠ 0 then (last.close - first.close) / first.close * 100 else 0
    let rangePct := if last.close ≠ 0 then (high - low) / last.close * 100 else 0
    { symbolID := symbolID
      exchange := "aggregate"
      period := period
      snapshotTime := snapshotTime
      trendDirection := trendOf priceChangePct
      structureState := stateOf priceChangePct rangePct
      lastSwingHigh := some high
      lastSwingLow := some low
      supportLevels := Repositories.supportLevels candles 3
      resistanceLevels := Repositories.resistanceLevels candles 3
      pricePosition := if high > low then some ((last.close - low) / (high - low) * 100) else none
      metadata := .obj [("candles", .int candles.length), ("non_signal", .bool true),
        ("price_change_percent", .dec priceChangePct), ("range_percent", .dec rangePct)] }
  | few =>
    { symbolID := symbolID
      exchange := "aggregate"
      period := period
      snapshotTime := snapshotTime
      metadata := .obj [("candles", .int few.length), ("reason", .str "insufficient_candles")] }

def buildMarketStructureSnapshots (windows : List AggregationWindow) (raw : KlineKey → Json)
    (klines : KlineTable) (symbolID snapshotTime : ℤ) : List MarketStructureSnapshot :=
  let candles := loadAggregateCandles raw klines symbolID (snapshotTime - 24 * hour) snapshotTime
  (aggregationWindows windows).map fun window =>
    computeMarketStructure symbolID window.label snapshotTime
      (filterCandles candles (snapshotTime - window.duration) snapshotTime)

/-! ## The swings of a window -/

theorem swingLow_le_iff {first x : ℚ} {candles : List AggregateCandle} :
    swingLow first candles ≤ x ↔ first ≤ x ∨ ∃ c ∈ candles, c.low ≤ x := by
  induction candles generalizing first with
  | nil => simp [swingLow]
  | cons c candles ih =>
    change swingLow (if c.low < first then c.low else first) candles ≤ x ↔ _
    have hmin : (if c.low < first then c.low else first) = min c.low first := (min_def_lt _ _).symm
    rw [ih, hmin, min_le_iff, List.exists_mem_cons_iff]
    tauto

theorem le_swingHigh_iff {first x : ℚ} {candles : List AggregateCandle} :
    x ≤ swingHigh first candles ↔ x ≤ first ∨ ∃ c ∈ candles, x ≤ c.high := by
  induction candles generalizing first with
  | nil => simp [swingHigh]
  | cons c candles ih =>
    change x ≤ swingHigh (if c.high > first then c.high else first) candles ↔ _
    have hmax : (if c.high > first then c.high else first) = max first c.high :=
      (max_def_lt _ _).symm
    rw [ih, hmax, le_max_iff, List.exists_mem_cons_iff]
    tauto

theorem swingLow_first_le_iff {first : AggregateCandle} {rest : List AggregateCandle} {x : ℚ} :
    swingLow first.low (first :: rest) ≤ x ↔ ∃ c ∈ first :: rest, c.low ≤ x := by
  rw [swingLow_le_iff]
  exact or_iff_right_of_imp fun h => ⟨first, List.mem_cons_self, h⟩

theorem le_swingHigh_first_iff {first : AggregateCandle} {rest : List AggregateCandle} {x : ℚ} :
    x ≤ swingHigh first.high (first :: rest) ↔ ∃ c ∈ first :: rest, x ≤ c.high := by
  rw [le_swingHigh_iff]
  exact or_iff_right_of_imp fun h => ⟨first, List.mem_cons_self, h⟩

/-- The last close lies between the swings, which are in order, and the position
    of the price is a percentage. -/
def MarketStructureSnapshot.Sane (snapshot : MarketStructureSnapshot) (close : ℚ) : Prop :=
  ∃ low high, snapshot.lastSwingLow = some low ∧ snapshot.lastSwingHigh = some high ∧
    low ≤ high ∧ low ≤ close ∧ close ≤ high ∧
    ∀ position, snapshot.pricePosition = some position → 0 ≤ position ∧ position ≤ 100

theorem position_mem {low high close : ℚ} (hlow : low ≤ close) (hhigh : close ≤ high)
    (hlt : low < high) :
    0 ≤ (close - low) / (high - low) * 100 ∧ (close - low) / (high - low) * 100 ≤ 100 := by
  have hpos : 0 < high - low := sub_pos.2 hlt
  have hfrac : 0 ≤ (close - low) / (high - low) := div_nonneg (sub_nonneg.2 hlow) hpos.le
  have hone : (close - low) / (high - low) ≤ 1 := (div_le_one hpos).2 (by linarith)
  constructor <;> linarith

/-- In terms of the candles: some low is below the last close, some high above. -/
theorem computeMarketStructure_sane_iff {symbolID snapshotTime : ℤ} {period : String}
    {candles : List AggregateCandle} (hlen : 2 ≤ candles.length) {last : AggregateCandle}
    (hlast : candles.getLast? = some last) :
    (computeMarketStructure symbolID period snapshotTime candles).Sane last.close ↔
      (∃ c ∈ candles, c.low ≤ last.close) ∧ ∃ c ∈ candles, last.close ≤ c.high := by
  match candles, hlen with
  | first :: next :: rest, _ =>
    have hlast' : rest.getLastD next = last := by
      rw [List.getLast?_cons_cons, List.getLast?_cons] at hlast
      simpa [List.getLastD_eq_getLast?] using hlast
    rw [← swingLow_first_le_iff, ← le_swingHigh_first_iff]
    simp only [MarketStructureSnapshot.Sane, computeMarketStructure, hlast', Option.some.injEq]
    constructor
    · rintro ⟨low, high, rfl, rfl, -, hle, hge, -⟩
      exact ⟨hle, hge⟩
    · rintro ⟨hle, hge⟩
      refine ⟨_, _, rfl, rfl, hle.trans hge, hle, hge, fun position hposition => ?_⟩
      obtain ⟨hlt, ⟨⟩⟩ := Option.ite_none_right_eq_some.1 hposition
      exact position_mem hle hge hlt

/-! ## The klines of a window -/

theorem mem_filterCandles {candles : List AggregateCandle} {start stop : ℤ} {c : AggregateCandle} :
    c ∈ filterCandles candles start stop ↔
      c ∈ candles ∧ start ≤ c.openTime ∧ c.openTime ≤ stop := by
  simp only [filterCandles, List.mem_filter, Bool.and_eq_true, Bool.or_eq_true, decide_eq_true_eq]
  rw [le_iff_eq_or_lt, le_iff_eq_or_lt, eq_comm (a := start)]

/-- The klines that the candles of a window are made of. -/
def windowKlines (raw : KlineKey → Json) (klines : KlineTable) (symbolID loadStart start stop : ℤ) :
    List NormalizedKline :=
  (candleRows raw klines symbolID loadStart stop).filter fun k =>
    start ≤ k.openTime && k.openTime ≤ stop

theorem mem_windowKlines {raw : KlineKey → Json} {klines : KlineTable}
    {symbolID loadStart start stop : ℤ} {k : NormalizedKline} :
    k ∈ windowKlines raw klines symbolID loadStart start stop ↔
      k ∈ candleRows raw klines symbolID loadStart stop ∧ start ≤ k.openTime ∧ k.openTime ≤ stop := by
  simp [windowKlines]

theorem mem_windowCandles {raw : KlineKey → Json} {klines : KlineTable}
    {symbolID loadStart start stop : ℤ} {c : AggregateCandle} :
    c ∈ filterCandles (loadAggregateCandles raw klines symbolID loadStart stop) start stop ↔
      ∃ k ∈ windowKlines raw klines symbolID loadStart start stop,
        candleAt (candleRows raw klines symbolID loadStart stop) k.openTime = c := by
  simp only [mem_filterCandles, mem_windowKlines, loadAggregateCandles, List.mem_map,
    List.mem_insertionSort, List.mem_dedup]
  constructor
  · rintro ⟨⟨time, ⟨k, hk, rfl⟩, rfl⟩, hstart, hstop⟩
    exact ⟨k, ⟨hk, hstart, hstop⟩, rfl⟩
  · rintro ⟨k, ⟨hk, hstart, hstop⟩, rfl⟩
    exact ⟨⟨k.openTime, ⟨k, hk, rfl⟩, rfl⟩, hstart, hstop⟩

/-- The prices of a candle that has a kline. -/
theorem candleAt_between {rows : List NormalizedKline} {k : NormalizedKline} (hk : k ∈ rows)
    (price : NormalizedKline → ℚ) :
    ∃ lo hi, ((rows.filter fun k' => k'.openTime = k.openTime).map price).min? = some lo ∧
      ((rows.filter fun k' => k'.openTime = k.openTime).map price).max? = some hi := by
  have hmem : k ∈ rows.filter fun k' => k'.openTime = k.openTime :=
    List.mem_filter.2 ⟨hk, decide_eq_true rfl⟩
  exact exists_extrema (List.ne_nil_of_mem (List.mem_map_of_mem hmem))

theorem exists_price_iff {rows : List NormalizedKline} {openTime : ℤ} {price : NormalizedKline → ℚ}
    {p : ℚ → Prop} :
    (∃ y ∈ (rows.filter fun k => k.openTime = openTime).map price, p y) ↔
      ∃ k ∈ rows, k.openTime = openTime ∧ p (price k) := by
  simp only [List.mem_map, exists_exists_and_eq_and]
  simp only [List.mem_filter, decide_eq_true_eq, and_assoc]

theorem candleAt_low_le_iff {rows : List NormalizedKline} {k : NormalizedKline} (hk : k ∈ rows)
    {x : ℚ} : (candleAt rows k.openTime).low ≤ x ↔
      ∃ k' ∈ rows, k'.openTime = k.openTime ∧ k'.lowPrice ≤ x := by
  obtain ⟨lo, -, hlo, -⟩ := candleAt_between hk (·.lowPrice)
  rw [candleAt, hlo, Option.getD_some, min?_le_iff hlo]
  exact exists_price_iff

theorem le_candleAt_high_iff {rows : List NormalizedKline} {k : NormalizedKline} (hk : k ∈ rows)
    {x : ℚ} : x ≤ (candleAt rows k.openTime).high ↔
      ∃ k' ∈ rows, k'.openTime = k.openTime ∧ x ≤ k'.highPrice := by
  obtain ⟨-, hi, -, hhi⟩ := candleAt_between hk (·.highPrice)
  rw [candleAt, hhi, Option.getD_some, le_max?_iff hhi]
  exact exists_price_iff

/-- The close of a candle is an average: some kline closes below it and some above. -/
theorem candleAt_close {rows : List NormalizedKline} {k : NormalizedKline} (hk : k ∈ rows) :
    (∃ k' ∈ rows, k'.openTime = k.openTime ∧ k'.closePrice ≤ (candleAt rows k.openTime).close) ∧
      ∃ k' ∈ rows, k'.openTime = k.openTime ∧ (candleAt rows k.openTime).close ≤ k'.closePrice := by
  have hne : (rows.filter fun k' => k'.openTime = k.openTime).map (·.closePrice) ≠ [] :=
    List.ne_nil_of_mem (List.mem_map_of_mem (List.mem_filter.2 ⟨hk, decide_eq_true rfl⟩))
  obtain ⟨lo, hi, hlo, hhi, hle, hge⟩ := between_mean hne
  exact ⟨exists_price_iff.1 ((min?_le_iff hlo).1 hle), exists_price_iff.1 ((le_max?_iff hhi).1 hge)⟩

/-- **The snapshot of a window** of at least two candles: if the close of every kline
    lies between its low and its high, the swings are in order, with the last close
    between them and the position in [0, 100]. -/
theorem marketStructure_sane {raw : KlineKey → Json} {klines : KlineTable}
    {symbolID loadStart start snapshotTime : ℤ} {period : String} {last : AggregateCandle}
    (hlen : 2 ≤ (filterCandles (loadAggregateCandles raw klines symbolID loadStart snapshotTime)
      start snapshotTime).length)
    (hlast : (filterCandles (loadAggregateCandles raw klines symbolID loadStart snapshotTime)
      start snapshotTime).getLast? = some last)
    (hsane : ∀ k ∈ klines, k.lowPrice ≤ k.closePrice ∧ k.closePrice ≤ k.highPrice) :
    (computeMarketStructure symbolID period snapshotTime (filterCandles
      (loadAggregateCandles raw klines symbolID loadStart snapshotTime) start snapshotTime)).Sane
      last.close := by
  have hmem := List.mem_of_getLast? hlast
  rw [computeMarketStructure_sane_iff hlen hlast]
  obtain ⟨k, hk, hcandle⟩ := mem_windowCandles.1 hmem
  have hrow := (mem_windowKlines.1 hk).1
  obtain ⟨⟨k₁, hk₁, htime₁, hle⟩, ⟨k₂, hk₂, htime₂, hge⟩⟩ := candleAt_close hrow
  have hsane₁ := (hsane k₁ (List.mem_of_mem_filter hk₁)).1
  have hsane₂ := (hsane k₂ (List.mem_of_mem_filter hk₂)).2
  rw [hcandle] at hle hge
  refine ⟨⟨last, hmem, ?_⟩, ⟨last, hmem, ?_⟩⟩
  · rw [← hcandle, candleAt_low_le_iff hrow, hcandle]
    exact ⟨k₁, hk₁, htime₁, hsane₁.trans hle⟩
  · rw [← hcandle, le_candleAt_high_iff hrow, hcandle]
    exact ⟨k₂, hk₂, htime₂, hge.trans hsane₂⟩

/-! ### Two candles -/

/-- A closed kline of binance. -/
def closedKline (openTime : ℤ) (low high close : ℚ) : NormalizedKline :=
  { symbolID := 1, exchange := "binance", sourceSymbol := "BTCUSDT", interval := "5m"
    openTime := openTime, closeTime := openTime + 5 * minute
    openPrice := close, highPrice := high, lowPrice := low, closePrice := close
    volume := none, quoteVolume := none, tradeCount := none, takerBuyVolume := none
    takerBuyQuoteVolume := none, isClosed := true }

/-- Two klines in a row with the same prices. -/
def samePrices (low high close : ℚ) : KlineTable :=
  ⟨[closedKline (5 * minute) low high close, closedKline (10 * minute) low high close],
    by simp [klineKey, closedKline, minute, second]⟩

/-- The candles of the two klines. -/
def twoCandles (low high close : ℚ) : List AggregateCandle :=
  filterCandles (loadAggregateCandles (fun _ => .obj []) (samePrices low high close) 1 0
    (15 * minute)) 0 (15 * minute)

theorem marketStructure_sane_two :
    2 ≤ (twoCandles 9 12 11).length ∧
    (twoCandles 9 12 11).getLast? = some ⟨10 * minute, 11, 12, 9, 11⟩ ∧
    (computeMarketStructure 1 "15m" (15 * minute) (twoCandles 9 12 11)).Sane 11 := by
  have hlen : 2 ≤ (twoCandles 9 12 11).length := by decide +kernel
  have hlast : (twoCandles 9 12 11).getLast? = some ⟨10 * minute, 11, 12, 9, 11⟩ := by decide +kernel
  have hsane : ∀ k ∈ samePrices 9 12 11, k.lowPrice ≤ k.closePrice ∧ k.closePrice ≤ k.highPrice := by
    show ∀ k ∈ (samePrices 9 12 11).rows, _
    decide +kernel
  exact ⟨hlen, hlast, marketStructure_sane hlen hlast hsane⟩

/-- The validator accepts klines with a low above the high, and with a close above
    both. -/
theorem marketStructure_insane :
    (∀ k ∈ (samePrices 20 10 30).rows ++ (samePrices 10 20 30).rows, validateKline k = .ok ()) ∧
    (twoCandles 20 10 30).length = 2 ∧
    (computeMarketStructure 1 "15m" (15 * minute) (twoCandles 20 10 30)).lastSwingLow = some 20 ∧
    (computeMarketStructure 1 "15m" (15 * minute) (twoCandles 20 10 30)).lastSwingHigh = some 10 ∧
    (twoCandles 10 20 30).length = 2 ∧
    (twoCandles 10 20 30).getLast? = some ⟨10 * minute, 30, 20, 10, 30⟩ ∧
    (computeMarketStructure 1 "15m" (15 * minute) (twoCandles 10 20 30)).pricePosition =
      some 200 := by
  decide +kernel

end Aggregator.Repositories
