/-
  The volatility of a symbol (`internal/repositories/aggregate_analytics.go`:
  `computeVolatility`, `averageTrueRange`, `realizedVolatility`, `candleRange`,
  `rangePercent`, `BuildVolatilitySnapshots`).

  The snapshots of the market structure are computed from the candles of the last day,
  those of the volatility from the candles of the last week.

  * `filterCandles_load`: the candles of a window do not depend on how far back they
    were loaded;
  * `analytics_agree`: for windows of at most a day, both kinds of snapshots have the
    same extremes.
-/
import Aggregator.Repositories.Structure

namespace Aggregator.Repositories

open Aggregator.Go Aggregator.Normalizers

structure VolatilitySnapshot where
  symbolID : ℤ
  exchange : String
  period : String
  snapshotTime : ℤ
  realizedVolatility : Option ℚ := none
  realizedVolatilityPercent : Option ℚ := none
  atr : Option ℚ := none
  atrPercent : Option ℚ := none
  highPrice : Option ℚ := none
  lowPrice : Option ℚ := none
  closePrice : Option ℚ := none
  rangePercent24h : Option ℚ := none
  rangePercent7d : Option ℚ := none
  rawData : Json

/-- `math.Log` and `math.Sqrt`. -/
structure MathFunctions where
  log : ℚ → ℚ
  sqrt : ℚ → ℚ

/-- The greatest high, the smallest low and the last close of some candles. -/
def candleRange (first : AggregateCandle) (rest : List AggregateCandle) : ℚ × ℚ × ℚ :=
  (swingHigh first.high (first :: rest), swingLow first.low (first :: rest),
    (rest.getLastD first).close)

/-- The range of a candle; `prevClose` is the close of the one before it. -/
def trueRange (prevClose : Option ℚ) (candle : AggregateCandle) : ℚ :=
  let range := candle.high - candle.low
  match prevClose with
  | none => range
  | some prevClose => max (max range |candle.high - prevClose|) |candle.low - prevClose|

/-- The loop of `averageTrueRange`. -/
def trueRanges (prevClose : Option ℚ) : List AggregateCandle → List ℚ
  | [] => []
  | candle :: candles => trueRange prevClose candle :: trueRanges (some candle.close) candles

def averageTrueRange (candles : List AggregateCandle) : Option ℚ :=
  if candles = [] then none else some ((trueRanges none candles).sum / candles.length)

/-- The loop of `realizedVolatility` over the returns. -/
def logReturns (log : ℚ → ℚ) : List AggregateCandle → List ℚ
  | prev :: current :: candles =>
    if prev.close ≤ 0 ∨ current.close ≤ 0 then logReturns log (current :: candles)
    else log (current.close / prev.close) :: logReturns log (current :: candles)
  | _ => []

def realizedVolatility (fns : MathFunctions) (candles : List AggregateCandle) : Option ℚ :=
  let returns := logReturns fns.log candles
  if candles.length < 2 ∨ returns.length < 2 then none
  else
    let mean := returns.sum / returns.length
    let variance := (returns.map fun value => (value - mean) * (value - mean)).sum /
      (returns.length - 1 : ℕ)
    some (fns.sqrt variance * fns.sqrt returns.length)

def rangePercent : List AggregateCandle → Option ℚ
  | [] => none
  | first :: rest =>
    let (high, low, closePrice) := candleRange first rest
    if closePrice = 0 then none else some ((high - low) / closePrice * 100)

def computeVolatility (fns : MathFunctions) (symbolID : ℤ) (period : String) (snapshotTime : ℤ)
    (candles candles24h candles7d : List AggregateCandle) : VolatilitySnapshot :=
  let snapshot : VolatilitySnapshot :=
    { symbolID := symbolID
      exchange := "aggregate"
      period := period
      snapshotTime := snapshotTime
      rawData := .obj [("candles", .int candles.length), ("non_signal", .bool true)] }
  match candles with
  | [] => snapshot
  | first :: rest =>
    let (high, low, closePrice) := candleRange first rest
    let atr := averageTrueRange candles
    let realized := realizedVolatility fns candles
    { snapshot with
      highPrice := some high
      lowPrice := some low
      closePrice := some closePrice
      atr := atr
      atrPercent := if closePrice ≠ 0 then atr.map fun atr => atr / closePrice * 100 else none
      realizedVolatility := realized
      realizedVolatilityPercent := realized.map (· * 100)
      rangePercent24h := rangePercent candles24h
      rangePercent7d := rangePercent candles7d }

def buildVolatilitySnapshots (fns : MathFunctions) (windows : List AggregationWindow)
    (raw : KlineKey → Json) (klines : KlineTable) (symbolID snapshotTime : ℤ) :
    List VolatilitySnapshot :=
  let candles7d := loadAggregateCandles raw klines symbolID (snapshotTime - 7 * 24 * hour) snapshotTime
  let candles24h := filterCandles candles7d (snapshotTime - 24 * hour) snapshotTime
  (aggregationWindows windows).map fun window =>
    computeVolatility fns symbolID window.label snapshotTime
      (filterCandles candles7d (snapshotTime - window.duration) snapshotTime) candles24h candles7d

/-! ## The candles of a window -/

section Load
variable {raw : KlineKey → Json} {klines : KlineTable} {symbolID loadStart start stop : ℤ}

/-- The times of the candles, in order. -/
def candleTimes (rows : List NormalizedKline) : List ℤ :=
  (rows.map fun k => k.openTime).dedup.insertionSort (· ≤ ·)

theorem mem_candleTimes {rows : List NormalizedKline} {time : ℤ} :
    time ∈ candleTimes rows ↔ ∃ k ∈ rows, k.openTime = time := by
  simp [candleTimes]

theorem nodup_candleTimes (rows : List NormalizedKline) : (candleTimes rows).Nodup :=
  (List.perm_insertionSort _ _).nodup_iff.2 (List.nodup_dedup _)

theorem candleRows_load (hstart : loadStart ≤ start) :
    candleRows raw klines symbolID start stop =
      (candleRows raw klines symbolID loadStart stop).filter fun k => start ≤ k.openTime := by
  simp only [candleRows, List.filter_filter]
  refine List.filter_congr fun k _ => ?_
  by_cases hk : start ≤ k.openTime
  · have hload : loadStart ≤ k.openTime := hstart.trans hk
    simp [candleRow, hk, hload]
  · simp [candleRow, hk]

/-- The klines of one time are loaded with any start before it. -/
theorem candleAt_load (hstart : loadStart ≤ start) {time : ℤ} (htime : start ≤ time) :
    candleAt (candleRows raw klines symbolID loadStart stop) time =
      candleAt (candleRows raw klines symbolID start stop) time := by
  have hgroup : (candleRows raw klines symbolID start stop).filter (fun k => k.openTime = time) =
      (candleRows raw klines symbolID loadStart stop).filter fun k => k.openTime = time := by
    rw [candleRows_load hstart, List.filter_filter]
    refine List.filter_congr fun k _ => ?_
    by_cases hk : k.openTime = time
    · simp [hk, htime]
    · simp [hk]
  simp only [candleAt, hgroup]

theorem stop_of_mem_candleRows {k : NormalizedKline}
    (hk : k ∈ candleRows raw klines symbolID loadStart stop) : k.openTime ≤ stop := by
  have h := (List.mem_filter.1 hk).2
  simp only [candleRow, Bool.and_eq_true, decide_eq_true_eq] at h
  exact h.1.1.1.1.1.1.2

/-- **The candles of a window** do not depend on how far back they were loaded. -/
theorem filterCandles_load (hstart : loadStart ≤ start) :
    filterCandles (loadAggregateCandles raw klines symbolID loadStart stop) start stop =
      loadAggregateCandles raw klines symbolID start stop := by
  have htimes : (candleTimes (candleRows raw klines symbolID loadStart stop)).filter
      (fun time => (time = start || start < time) && (time = stop || time < stop)) =
      candleTimes (candleRows raw klines symbolID start stop) := by
    refine List.Perm.eq_of_pairwise (fun _ _ _ _ => le_antisymm)
      ((List.pairwise_insertionSort _ _).filter _) (List.pairwise_insertionSort _ _) ?_
    rw [List.perm_ext_iff_of_nodup ((nodup_candleTimes _).filter _) (nodup_candleTimes _)]
    intro time
    rw [List.mem_filter, mem_candleTimes, mem_candleTimes, candleRows_load hstart]
    simp only [List.mem_filter, decide_eq_true_eq, Bool.and_eq_true, Bool.or_eq_true]
    constructor
    · rintro ⟨⟨k, hk, rfl⟩, hle, -⟩
      exact ⟨k, ⟨hk, by omega⟩, rfl⟩
    · rintro ⟨k, ⟨hk, hle⟩, rfl⟩
      have hstop := stop_of_mem_candleRows hk
      exact ⟨⟨k, hk, rfl⟩, by omega, by omega⟩
  show ((candleTimes _).map _).filter _ = (candleTimes _).map _
  rw [List.filter_map, ← htimes]
  refine List.map_congr_left fun time htime => ?_
  refine candleAt_load hstart ?_
  have h : ((time = start || start < time) && (time = stop || time < stop)) = true :=
    (List.mem_filter.1 htime).2
  simp only [Bool.and_eq_true, Bool.or_eq_true, decide_eq_true_eq] at h
  omega

end Load

/-! ## Both kinds of snapshots -/

/-- The snapshots of a window have the same extremes, and the position of the price is
    that of the last close between them. -/
structure AnalyticsAgree (market : MarketStructureSnapshot) (volatility : VolatilitySnapshot) :
    Prop where
  period : market.period = volatility.period
  high : ∀ high ∈ market.lastSwingHigh, volatility.highPrice = some high
  low : ∀ low ∈ market.lastSwingLow, volatility.lowPrice = some low
  position : ∀ position ∈ market.pricePosition, ∃ high low close,
    volatility.highPrice = some high ∧ volatility.lowPrice = some low ∧
      volatility.closePrice = some close ∧ position = (close - low) / (high - low) * 100

/-- On the same candles. -/
theorem analyticsAgree (fns : MathFunctions) (symbolID snapshotTime : ℤ) (period : String)
    (candles candles24h candles7d : List AggregateCandle) :
    AnalyticsAgree (computeMarketStructure symbolID period snapshotTime candles)
      (computeVolatility fns symbolID period snapshotTime candles candles24h candles7d) := by
  match candles with
  | [] => exact ⟨rfl, nofun, nofun, nofun⟩
  | [c] => exact ⟨rfl, nofun, nofun, nofun⟩
  | first :: next :: rest =>
    refine ⟨rfl, fun _ h => h, fun _ h => h, fun position h => ?_⟩
    obtain ⟨-, ⟨⟩⟩ := Option.ite_none_right_eq_some.1 h
    refine ⟨_, _, _, rfl, rfl, rfl, ?_⟩
    rw [List.getLastD_cons]

/-- **The market structure and the volatility of a symbol** agree, if no window is longer
    than the day that is loaded for the market structure. -/
theorem analytics_agree (fns : MathFunctions) {windows : List AggregationWindow}
    (hday : ∀ w ∈ aggregationWindows windows, w.duration ≤ 24 * hour) (raw : KlineKey → Json)
    (klines : KlineTable) (symbolID snapshotTime : ℤ) :
    List.Forall₂ AnalyticsAgree
      (buildMarketStructureSnapshots windows raw klines symbolID snapshotTime)
      (buildVolatilitySnapshots fns windows raw klines symbolID snapshotTime) := by
  rw [buildMarketStructureSnapshots, buildVolatilitySnapshots, List.forall₂_map_left_iff,
    List.forall₂_map_right_iff, List.forall₂_same]
  intro window hwindow
  have hd := hday window hwindow
  have hhour : (0 : ℤ) < hour := by decide
  have hdayLoad : snapshotTime - 24 * hour ≤ snapshotTime - window.duration := by omega
  have hweekLoad : snapshotTime - 7 * 24 * hour ≤ snapshotTime - window.duration := by omega
  rw [filterCandles_load hdayLoad, filterCandles_load hweekLoad]
  exact analyticsAgree ..

/-- A quarter of an hour with two klines, and the windows of the service. -/
theorem analytics_agree_default :
    (∀ w ∈ aggregationWindows [], w.duration ≤ 24 * hour) ∧
    List.Forall₂ AnalyticsAgree
      (buildMarketStructureSnapshots [] (fun _ => .obj []) (samePrices 9 12 11) 1 (15 * minute))
      (buildVolatilitySnapshots ⟨id, id⟩ [] (fun _ => .obj []) (samePrices 9 12 11) 1
        (15 * minute)) := by
  have hday : ∀ w ∈ aggregationWindows [], w.duration ≤ 24 * hour := by decide
  exact ⟨hday, analytics_agree ⟨id, id⟩ hday _ _ 1 _⟩

end Aggregator.Repositories
