/-
  The aggregate of the market snapshots of a symbol, and the point of the
  analytics at the same time (`internal/repositories/aggregate.go`: `BuildLatest`;
  `aggregate_analytics.go`: `marketAggregateAt`).

  Both read the newest row of each exchange by the same query, which does not
  say in which order (`ReadSnapshots`), and run a loop over the rows.

  * `numbers_add_add`, `foldl_add_perm`: the loop does not depend on the order;
  * `PointFollows.add`, `pointFollows_foldl`: the loop of `marketAggregateAt` follows that of
    `BuildLatest`;
  * `buildLatest_consistent`: prices and funding rates lie between the smallest and
    the greatest, and the results of the two agree.
-/
import Aggregator.Lib.DistinctOn
import Aggregator.Lib.Mean
import Aggregator.Repositories.Aggregate

namespace Aggregator.Repositories

open Aggregator.Go Aggregator.Normalizers

/-! ## The query -/

/-- The rows may be what the query returns. -/
abbrev ReadSnapshots (options : AggregateOptions) (t : MarketSnapshotTable) (symbolID time : ℤ)
    (rows : List NormalizedMarketSnapshot) : Prop :=
  DistinctOn (·.exchange) (·.snapshotTime)
    (t.rows.filter (inWindow symbolID (time - (normalizeAggregateOptions options).maxSnapshotAge)
      time)) rows

/-- `latestSnapshots` is such a result. -/
theorem distinctOn_latestSnapshots (t : MarketSnapshotTable) (symbolID cutoff time : ℤ) :
    DistinctOn (·.exchange) (·.snapshotTime) (t.rows.filter (inWindow symbolID cutoff time))
      (latestSnapshots t symbolID cutoff time) := by
  have hnewest : ∀ e, newest t.rows symbolID cutoff time e =
      latestOf (·.exchange) (·.snapshotTime) (t.rows.filter (inWindow symbolID cutoff time)) e := by
    intro e
    simp only [newest, latestOf, List.filter_filter, Bool.and_comm]
  refine ⟨fun r hr => ?_, fun r hr => ?_, ?_⟩
  · rw [mem_latestSnapshots, hnewest] at hr
    exact newest_latestOf hr
  · obtain ⟨s, hs⟩ := exists_latestOf (fun r : NormalizedMarketSnapshot => r.exchange)
      (·.snapshotTime) hr
    have hon := on_latestOf hs
    refine ⟨s, ?_, hon⟩
    rw [mem_latestSnapshots, hnewest, hon]
    exact hs
  · rw [List.Nodup, List.pairwise_map, latestSnapshots]
    refine List.pairwise_filterMap.2 ?_
    refine ((List.perm_insertionSort _ _).nodup_iff.2 (List.nodup_dedup _)).imp ?_
    intro e e' hne r hr r' hr' heq
    rw [hnewest] at hr hr'
    exact hne (by rw [← on_latestOf hr, ← on_latestOf hr', heq])

namespace ReadSnapshots
variable {options : AggregateOptions} {t : MarketSnapshotTable} {symbolID time : ℤ}
  {rows rows' : List NormalizedMarketSnapshot}

/-- Two readings have the same rows: the index of the table rules out ties. -/
theorem perm (h : ReadSnapshots options t symbolID time rows)
    (h' : ReadSnapshots options t symbolID time rows') : rows.Perm rows' := by
  refine DistinctOn.perm h h' fun r s hr hs hon => ?_
  obtain ⟨hrt, hrw⟩ := List.mem_filter.1 hr.1
  obtain ⟨hst, hsw⟩ := List.mem_filter.1 hs.1
  have htime : r.snapshotTime = s.snapshotTime :=
    le_antisymm (hs.2 r hr.1 hon) (hr.2 s hs.1 hon.symm)
  simp only [inWindow, Bool.and_eq_true, decide_eq_true_eq] at hrw hsw
  refine Table.eq_of_key hrt hst ?_
  simp only [snapshotKey, SnapshotKey.mk.injEq]
  exact ⟨hrw.1.1.trans hsw.1.1.symm, hon, htime⟩

/-- No row is stale. -/
theorem cutoff_le (h : ReadSnapshots options t symbolID time rows) :
    ∀ r ∈ rows, time - (normalizeAggregateOptions options).maxSnapshotAge ≤ r.snapshotTime := by
  intro r hr
  have hw := (List.mem_filter.1 (h.newest r hr).1).2
  simp only [inWindow, Bool.and_eq_true, decide_eq_true_eq] at hw
  exact hw.2

end ReadSnapshots

/-! ## `BuildLatest` on the rows -/

/-- The loop over the rows. -/
def foldRows (options : AggregateOptions) (snapshotTime now : ℤ)
    (rows : List NormalizedMarketSnapshot) : AggregateTotals × AggregateQualityMetadata :=
  rows.foldl (aggregateRow (staleCutoff options snapshotTime now))
    ({}, newAggregateQualityMetadata (aggregateTime snapshotTime now)
      (staleCutoff options snapshotTime now) (normalizeAggregateOptions options).maxSnapshotAge)

/-- The result that `BuildLatest` makes of the variables of the loop. -/
def resultOf (symbolID time : ℤ) (acc : AggregateTotals × AggregateQualityMetadata) :
    DerivativeAggregateSnapshot :=
  { symbolID := symbolID
    snapshotTime := time
    exchangeCount := acc.2.includedExchanges.length
    priceAvg := if 0 < acc.1.priceCount then some (acc.1.priceSum / acc.1.priceCount) else none
    priceWeighted := if 0 < acc.1.weightedDenom then
      some (acc.1.weightedNumerator / acc.1.weightedDenom) else none
    totalVolume24h := some acc.1.totalVolume
    totalQuoteVolume24h := some acc.1.totalQuoteVolume
    totalOpenInterest := some acc.1.totalOI
    totalOpenInterestValue := if acc.1.hasOIValue then some acc.1.totalOIValue else none
    avgFundingRate := if 0 < acc.1.fundingCount then
      some (acc.1.fundingSum / acc.1.fundingCount) else none
    minFundingRate := acc.1.minFunding
    maxFundingRate := acc.1.maxFunding
    availableExchanges := acc.2.includedExchanges
    rawByExchange := acc.1.rawByExchange
    qualityMetadata := acc.2 }

/-- The result of `BuildLatest` for the rows. -/
def aggregateOf (options : AggregateOptions) (symbolID snapshotTime now : ℤ)
    (rows : List NormalizedMarketSnapshot) : DerivativeAggregateSnapshot :=
  resultOf symbolID (aggregateTime snapshotTime now) (foldRows options snapshotTime now rows)

theorem buildLatest_eq (options : AggregateOptions) (t : MarketSnapshotTable)
    (symbolID snapshotTime now : ℤ) :
    buildLatest options t symbolID snapshotTime now =
      aggregateOf options symbolID snapshotTime now
        (latestSnapshots t symbolID (staleCutoff options snapshotTime now)
          (aggregateTime snapshotTime now)) := rfl

/-! ## `marketAggregateAt` -/

structure MarketAggregatePoint where
  price : Option ℚ
  volume : Option ℚ
  openInterest : Option ℚ
  exchangeCount : ℕ
deriving DecidableEq, Repr

/-- The variables of the loop. -/
structure PointTotals where
  priceSum : ℚ := 0
  priceCount : ℕ := 0
  totalVolume : ℚ := 0
  hasVolume : Bool := false
  totalOI : ℚ := 0
  hasOI : Bool := false
  exchangeCount : ℕ := 0

/-- One row of the loop. -/
def PointTotals.add (acc : PointTotals) (row : NormalizedMarketSnapshot) : PointTotals :=
  if rawJSONMarkedDegraded row.rawData then acc
  else
    let price := (snapshotPrice row).filter fun p => 0 < p
    { priceSum := acc.priceSum + price.getD 0
      priceCount := acc.priceCount + if price.isSome then 1 else 0
      totalVolume := addAmount acc.totalVolume row.volume24h
      hasVolume := acc.hasVolume || row.volume24h.any fun q => 0 ≤ q
      totalOI := addAmount acc.totalOI row.openInterest
      hasOI := acc.hasOI || row.openInterest.any fun q => 0 ≤ q
      exchangeCount := acc.exchangeCount + 1 }

/-- `marketAggregateAt`, of the rows that its query returns. -/
def marketAggregateAt (rows : List NormalizedMarketSnapshot) : MarketAggregatePoint :=
  let totals := rows.foldl PointTotals.add {}
  { price := if 0 < totals.priceCount then some (totals.priceSum / totals.priceCount) else none
    volume := if totals.hasVolume then some totals.totalVolume else none
    openInterest := if totals.hasOI then some totals.totalOI else none
    exchangeCount := totals.exchangeCount }

/-! ## The order of the rows -/

theorem addAmount_right_comm (total : ℚ) (v w : Option ℚ) :
    addAmount (addAmount total v) w = addAmount (addAmount total w) v := by
  cases v <;> cases w <;> simp only [addAmount]
  split <;> split <;> simp [add_right_comm]

theorem addMin_right_comm (best v w : Option ℚ) :
    addMin (addMin best v) w = addMin (addMin best w) v := by
  cases best <;> cases v <;> cases w <;> simp only [addMin, addBest] <;> grind

theorem addMax_right_comm (best v w : Option ℚ) :
    addMax (addMax best v) w = addMax (addMax best w) v := by
  cases best <;> cases v <;> cases w <;> simp only [addMax, addBest] <;> grind

/-- The variables that are numbers. -/
def AggregateTotals.numbers (acc : AggregateTotals) : AggregateTotals :=
  { acc with rawByExchange := [] }

/-- Two rows change the numbers in the same way in either order. -/
theorem numbers_add_add (acc : AggregateTotals) (a b : NormalizedMarketSnapshot) :
    ((acc.add a).add b).numbers = ((acc.add b).add a).numbers := by
  simp only [AggregateTotals.numbers, AggregateTotals.add, add_right_comm, Bool.or_right_comm,
    addAmount_right_comm _ a.volume24h, addAmount_right_comm _ a.quoteVolume24h,
    addAmount_right_comm _ a.openInterest, addMin_right_comm _ a.fundingRate,
    addMax_right_comm _ a.fundingRate]

theorem numbers_foldl_add (rows : List NormalizedMarketSnapshot) (acc : AggregateTotals) :
    (rows.foldl AggregateTotals.add acc).numbers =
      rows.foldl (fun acc row => (acc.add row).numbers) acc.numbers :=
  (List.foldl_hom AggregateTotals.numbers fun _ _ => rfl).symm

theorem foldl_add_perm {rows rows' : List NormalizedMarketSnapshot} (h : rows.Perm rows')
    (acc : AggregateTotals) : (rows.foldl AggregateTotals.add acc).numbers =
      (rows'.foldl AggregateTotals.add acc).numbers := by
  rw [numbers_foldl_add, numbers_foldl_add]
  exact h.foldl_eq' (fun a _ b _ acc => numbers_add_add acc a b) _

/-- What the loop adds to the quality metadata. -/
def skippedEntry (cutoff : ℤ) (row : NormalizedMarketSnapshot) : List (String × String) :=
  if row.snapshotTime < cutoff then [(row.exchange, "stale_snapshot")]
  else if rawJSONMarkedDegraded row.rawData then [(row.exchange, "degraded_raw_data")]
  else []

def invalidEntries (cutoff : ℤ) (row : NormalizedMarketSnapshot) : List (String × String) :=
  if skipped cutoff row then [] else (invalidColumns row).map (row.exchange, ·)

def rawEntry (cutoff : ℤ) (row : NormalizedMarketSnapshot) : List (String × Json) :=
  if skipped cutoff row then [] else [(row.exchange, ensureJSON row.rawData)]

theorem foldl_aggregateRow_snd (cutoff : ℤ) (rows : List NormalizedMarketSnapshot)
    (acc : AggregateTotals × AggregateQualityMetadata) :
    (rows.foldl (aggregateRow cutoff) acc).2 = { acc.2 with
      includedExchanges :=
        acc.2.includedExchanges ++ (rows.filter (!skipped cutoff ·)).map (·.exchange)
      skippedExchanges := acc.2.skippedExchanges ++ rows.flatMap (skippedEntry cutoff)
      invalidFields := acc.2.invalidFields ++ rows.flatMap (invalidEntries cutoff) } := by
  induction rows generalizing acc with
  | nil => simp
  | cons row rows ih =>
    rw [List.foldl_cons, ih]
    by_cases hstale : row.snapshotTime < cutoff
    · simp [aggregateRow, skipped, skippedEntry, invalidEntries, hstale]
    · by_cases hraw : rawJSONMarkedDegraded row.rawData
      · simp [aggregateRow, skipped, skippedEntry, invalidEntries, hstale, hraw]
      · simp [aggregateRow, skipped, skippedEntry, invalidEntries, hstale, hraw]

theorem rawByExchange_foldl (cutoff : ℤ) (rows : List NormalizedMarketSnapshot)
    (acc : AggregateTotals × AggregateQualityMetadata) :
    (rows.foldl (aggregateRow cutoff) acc).1.rawByExchange =
      acc.1.rawByExchange ++ rows.flatMap (rawEntry cutoff) := by
  induction rows generalizing acc with
  | nil => simp
  | cons row rows ih =>
    rw [List.foldl_cons, ih]
    by_cases hstale : row.snapshotTime < cutoff
    · simp [aggregateRow, skipped, rawEntry, hstale]
    · by_cases hraw : rawJSONMarkedDegraded row.rawData
      · simp [aggregateRow, skipped, rawEntry, hstale, hraw]
      · simp [aggregateRow, AggregateTotals.add, skipped, rawEntry, hstale, hraw]

/-- The result without the lists over the exchanges. -/
def DerivativeAggregateSnapshot.numbers (result : DerivativeAggregateSnapshot) :
    DerivativeAggregateSnapshot :=
  { result with
    availableExchanges := []
    rawByExchange := []
    qualityMetadata := { result.qualityMetadata with
      includedExchanges := [], skippedExchanges := [], invalidFields := [] } }

/-- The results differ at most in the order of the exchanges: what they hold for
    an exchange is the same. -/
structure SameUpToOrder (a b : DerivativeAggregateSnapshot) : Prop where
  numbers : a.numbers = b.numbers
  exchanges : a.availableExchanges.Perm b.availableExchanges
  included : a.qualityMetadata.includedExchanges.Perm b.qualityMetadata.includedExchanges
  raw : ∀ exchange, a.rawByExchange.filter (fun p => p.1 = exchange) =
    b.rawByExchange.filter fun p => p.1 = exchange
  skipped : ∀ exchange, a.qualityMetadata.skippedExchanges.filter (fun p => p.1 = exchange) =
    b.qualityMetadata.skippedExchanges.filter fun p => p.1 = exchange
  invalid : ∀ exchange, a.qualityMetadata.invalidFields.filter (fun p => p.1 = exchange) =
    b.qualityMetadata.invalidFields.filter fun p => p.1 = exchange

theorem numbers_resultOf (symbolID time : ℤ) {acc acc' : AggregateTotals × AggregateQualityMetadata}
    (htotals : acc.1.numbers = acc'.1.numbers)
    (hcount : acc.2.includedExchanges.length = acc'.2.includedExchanges.length)
    (hquality : { acc.2 with includedExchanges := [], skippedExchanges := [], invalidFields := [] } =
      { acc'.2 with includedExchanges := [], skippedExchanges := [], invalidFields := [] }) :
    (resultOf symbolID time acc).numbers = (resultOf symbolID time acc').numbers := by
  simp only [AggregateTotals.numbers, AggregateTotals.mk.injEq] at htotals
  simp only [DerivativeAggregateSnapshot.numbers, resultOf, htotals, hcount, hquality]

/-- **The order of the rows** does not matter. -/
theorem sameUpToOrder_of_perm (options : AggregateOptions) (symbolID snapshotTime now : ℤ)
    {rows rows' : List NormalizedMarketSnapshot} (h : rows.Perm rows')
    (hn : (rows.map fun r => r.exchange).Nodup) :
    SameUpToOrder (aggregateOf options symbolID snapshotTime now rows)
      (aggregateOf options symbolID snapshotTime now rows') := by
  have hincluded := ((h.filter (!skipped (staleCutoff options snapshotTime now) ·)).map
    fun r : NormalizedMarketSnapshot => r.exchange)
  refine ⟨numbers_resultOf _ _ ?_ ?_ ?_, ?_, ?_, ?_, ?_, ?_⟩
  · rw [foldRows, foldRows, foldl_aggregateRow, foldl_aggregateRow]
    exact foldl_add_perm (h.filter _) _
  · simp only [foldRows, foldl_aggregateRow_snd, newAggregateQualityMetadata, List.nil_append]
    exact hincluded.length_eq
  · simp only [foldRows, foldl_aggregateRow_snd, newAggregateQualityMetadata]
  · simpa only [aggregateOf, resultOf, foldRows, foldl_aggregateRow_snd,
      newAggregateQualityMetadata, List.nil_append] using hincluded
  · simpa only [aggregateOf, resultOf, foldRows, foldl_aggregateRow_snd,
      newAggregateQualityMetadata, List.nil_append] using hincluded
  · intro exchange
    simp only [aggregateOf, resultOf, foldRows, rawByExchange_foldl, List.nil_append]
    refine filter_flatMap_eq_of_perm h hn (fun r p hp => ?_) exchange
    rw [rawEntry] at hp
    split at hp <;> simp_all
  · intro exchange
    simp only [aggregateOf, resultOf, foldRows, foldl_aggregateRow_snd,
      newAggregateQualityMetadata, List.nil_append]
    refine filter_flatMap_eq_of_perm h hn (fun r p hp => ?_) exchange
    rw [skippedEntry] at hp
    split at hp <;> try split at hp
    all_goals simp_all
  · intro exchange
    simp only [aggregateOf, resultOf, foldRows, foldl_aggregateRow_snd,
      newAggregateQualityMetadata, List.nil_append]
    refine filter_flatMap_eq_of_perm h hn (fun r p hp => ?_) exchange
    rw [invalidEntries] at hp
    split at hp
    · cases hp
    · obtain ⟨_, -, rfl⟩ := List.mem_map.1 hp
      rfl

/-! ## The two loops -/

/-- The variables of `marketAggregateAt` follow those of `BuildLatest`. -/
structure PointFollows (point : PointTotals) (acc : AggregateTotals × AggregateQualityMetadata) :
    Prop where
  priceSum : point.priceSum = acc.1.priceSum
  priceCount : point.priceCount = acc.1.priceCount
  totalVolume : point.totalVolume = acc.1.totalVolume
  totalOI : point.totalOI = acc.1.totalOI
  exchangeCount : point.exchangeCount = acc.2.includedExchanges.length
  hasVolume : point.hasVolume = false → point.totalVolume = 0
  hasOI : point.hasOI = false → point.totalOI = 0

/-- A value that is left out adds nothing. -/
theorem addAmount_of_not_any {total : ℚ} {value : Option ℚ} (h : value.any (fun q => 0 ≤ q) = false) :
    addAmount total value = total := by
  cases value with
  | none => rfl
  | some q => simp_all [addAmount]

theorem PointFollows.add {point : PointTotals} {acc : AggregateTotals × AggregateQualityMetadata}
    (h : PointFollows point acc) {cutoff : ℤ} {row : NormalizedMarketSnapshot}
    (hrow : cutoff ≤ row.snapshotTime) : PointFollows (point.add row) (aggregateRow cutoff acc row) := by
  have hstale : ¬row.snapshotTime < cutoff := not_lt.2 hrow
  by_cases hraw : rawJSONMarkedDegraded row.rawData
  · simp only [PointTotals.add, aggregateRow, hraw, hstale, ↓reduceIte]
    exact ⟨h.priceSum, h.priceCount, h.totalVolume, h.totalOI, h.exchangeCount, h.hasVolume, h.hasOI⟩
  · simp only [PointTotals.add, aggregateRow, hraw, hstale, ↓reduceIte, Bool.false_eq_true]
    refine ⟨?_, ?_, ?_, ?_, ?_, fun hany => ?_, fun hany => ?_⟩
    · simp only [AggregateTotals.add, h.priceSum]
    · simp only [AggregateTotals.add, h.priceCount]
    · simp only [AggregateTotals.add, h.totalVolume]
    · simp only [AggregateTotals.add, h.totalOI]
    · simp only [List.length_append, List.length_singleton, h.exchangeCount]
    · obtain ⟨hacc, hany⟩ := Bool.or_eq_false_iff.1 hany
      rw [addAmount_of_not_any hany, h.hasVolume hacc]
    · obtain ⟨hacc, hany⟩ := Bool.or_eq_false_iff.1 hany
      rw [addAmount_of_not_any hany, h.hasOI hacc]

theorem pointFollows_foldl {cutoff : ℤ} {rows : List NormalizedMarketSnapshot}
    (hrows : ∀ r ∈ rows, cutoff ≤ r.snapshotTime) {point : PointTotals}
    {acc : AggregateTotals × AggregateQualityMetadata} (h : PointFollows point acc) :
    PointFollows (rows.foldl PointTotals.add point) (rows.foldl (aggregateRow cutoff) acc) := by
  induction rows generalizing point acc with
  | nil => exact h
  | cons row rows ih =>
    exact ih (fun r hr => hrows r (List.mem_cons_of_mem _ hr)) (h.add (hrows row List.mem_cons_self))

/-- The result and the point agree; what is absent counts as 0. -/
structure Agrees (result : DerivativeAggregateSnapshot) (point : MarketAggregatePoint) : Prop where
  exchangeCount : result.exchangeCount = point.exchangeCount
  price : result.priceAvg = point.price
  volume : result.totalVolume24h.getD 0 = point.volume.getD 0
  openInterest : result.totalOpenInterest.getD 0 = point.openInterest.getD 0

theorem agrees_of_pointFollows {symbolID time : ℤ} {rows : List NormalizedMarketSnapshot}
    {acc : AggregateTotals × AggregateQualityMetadata}
    (h : PointFollows (rows.foldl PointTotals.add {}) acc) :
    Agrees (resultOf symbolID time acc) (marketAggregateAt rows) := by
  refine ⟨h.exchangeCount.symm, ?_, ?_, ?_⟩
  · simp only [resultOf, marketAggregateAt, h.priceSum, h.priceCount]
  · simp only [resultOf, marketAggregateAt]
    cases hv : (rows.foldl PointTotals.add {}).hasVolume with
    | true => simp [h.totalVolume]
    | false => simp [← h.totalVolume, h.hasVolume hv]
  · simp only [resultOf, marketAggregateAt]
    cases hv : (rows.foldl PointTotals.add {}).hasOI with
    | true => simp [h.totalOI]
    | false => simp [← h.totalOI, h.hasOI hv]

/-! ## Prices and funding rates -/

/-- The price of a row that counts. -/
def positivePrice (row : NormalizedMarketSnapshot) : Option ℚ :=
  (snapshotPrice row).filter fun p => 0 < p

/-- The quote volume of a row that counts. -/
def quoteWeight (row : NormalizedMarketSnapshot) : Option ℚ :=
  row.quoteVolume24h.filter fun q => 0 < q

/-- The weight of the price of a row. -/
def priceWeight (row : NormalizedMarketSnapshot) : ℚ :=
  if (positivePrice row).isSome then (quoteWeight row).getD 0 else 0

theorem priceWeight_nonneg (row : NormalizedMarketSnapshot) : 0 ≤ priceWeight row := by
  rw [priceWeight]
  split
  · cases hq : quoteWeight row with
    | none => simp
    | some q => simpa using (of_decide_eq_true (Option.filter_eq_some_iff.1 hq).2).le
  · exact le_rfl

/-- The loop computes the mean of the prices. -/
theorem priceAvg_foldl (rows : List NormalizedMarketSnapshot) :
    (rows.foldl AggregateTotals.add {}).priceSum = (rows.filterMap positivePrice).sum ∧
      (rows.foldl AggregateTotals.add {}).priceCount = (rows.filterMap positivePrice).length := by
  have hsum := foldl_add_view (·.priceSum) positivePrice (fun sum v => sum + v.getD 0)
    (fun _ _ => rfl) rows {}
  have hcount := foldl_add_view (·.priceCount) positivePrice
    (fun count v => count + if v.isSome then 1 else 0) (fun _ _ => rfl) rows {}
  rw [foldl_addFunding, zero_add, List.filterMap_map] at hsum
  rw [foldl_countFunding, zero_add, List.filterMap_map] at hcount
  exact ⟨hsum, hcount⟩

/-- A variable to which each row adds an amount is the sum of the amounts. -/
theorem foldl_add_sum (view : AggregateTotals → ℚ) (amount : NormalizedMarketSnapshot → ℚ)
    (h : ∀ acc row, view (acc.add row) = view acc + amount row)
    (rows : List NormalizedMarketSnapshot) (acc : AggregateTotals) :
    view (rows.foldl AggregateTotals.add acc) = view acc + (rows.map amount).sum := by
  induction rows generalizing acc with
  | nil => simp
  | cons row rows ih => rw [List.foldl_cons, ih, h, List.map_cons, List.sum_cons, add_assoc]

/-- And the mean of the prices with the quote volumes as weights. -/
theorem priceWeighted_foldl (rows : List NormalizedMarketSnapshot) :
    (rows.foldl AggregateTotals.add {}).weightedNumerator =
        (rows.map fun row => (positivePrice row).getD 0 * priceWeight row).sum ∧
      (rows.foldl AggregateTotals.add {}).weightedDenom = (rows.map priceWeight).sum := by
  refine ⟨(foldl_add_sum (·.weightedNumerator) _ (fun acc row => ?_) rows {}).trans (zero_add _),
    (foldl_add_sum (·.weightedDenom) _ (fun acc row => ?_) rows {}).trans (zero_add _)⟩
  · change acc.weightedNumerator + (if (positivePrice row).isSome && (quoteWeight row).isSome then
      (positivePrice row).getD 0 * (quoteWeight row).getD 0 else 0) = _
    rw [priceWeight]
    cases positivePrice row <;> cases quoteWeight row <;> simp
  · change acc.weightedDenom + (if (positivePrice row).isSome && (quoteWeight row).isSome then
      (quoteWeight row).getD 0 else 0) = _
    rw [priceWeight]
    cases positivePrice row <;> cases quoteWeight row <;> simp

/-- The positive prices of the exchanges that a result includes. -/
def includedPrices (cutoff : ℤ) (rows : List NormalizedMarketSnapshot) : List ℚ :=
  (rows.filter (!skipped cutoff ·)).filterMap positivePrice

/-- The prices of a result lie between the smallest and the greatest price. -/
structure PricesBetween (result : DerivativeAggregateSnapshot) (prices : List ℚ) : Prop where
  avg : ∀ p, result.priceAvg = some p → Between prices p
  weighted : ∀ p, result.priceWeighted = some p → Between prices p

theorem pricesBetween (options : AggregateOptions) (symbolID snapshotTime now : ℤ)
    (rows : List NormalizedMarketSnapshot) :
    PricesBetween (aggregateOf options symbolID snapshotTime now rows)
      (includedPrices (staleCutoff options snapshotTime now) rows) := by
  constructor
  · intro p hp
    obtain ⟨hsum, hcount⟩ :=
      priceAvg_foldl (rows.filter (!skipped (staleCutoff options snapshotTime now) ·))
    simp only [aggregateOf, resultOf, foldRows, foldl_aggregateRow, hsum, hcount] at hp
    obtain ⟨hpos, ⟨⟩⟩ := Option.ite_none_right_eq_some.1 hp
    exact between_mean (List.length_pos_iff.1 hpos)
  · intro p hp
    obtain ⟨hnumerator, hdenom⟩ :=
      priceWeighted_foldl (rows.filter (!skipped (staleCutoff options snapshotTime now) ·))
    simp only [aggregateOf, resultOf, foldRows, foldl_aggregateRow, hnumerator, hdenom] at hp
    obtain ⟨hpos, ⟨⟩⟩ := Option.ite_none_right_eq_some.1 hp
    refine between_weightedMean (fun row _ => priceWeight_nonneg row) (fun row hrow hw => ?_) hpos
    -- a row with a weight has a price
    rw [includedPrices, List.mem_filterMap]
    cases hprice : positivePrice row with
    | none => simp [priceWeight, hprice] at hw
    | some q => exact ⟨row, hrow, by rw [hprice]; rfl⟩

/-- The average funding rate lies between the smallest and the greatest one; all
    three are present or none is. -/
def FundingBetween (result : DerivativeAggregateSnapshot) : Prop :=
  (result.minFundingRate = none ∧ result.avgFundingRate = none ∧ result.maxFundingRate = none) ∨
    ∃ lo avg hi, result.minFundingRate = some lo ∧ result.avgFundingRate = some avg ∧
      result.maxFundingRate = some hi ∧ lo ≤ avg ∧ avg ≤ hi

theorem fundingBetween (options : AggregateOptions) (symbolID snapshotTime now : ℤ)
    (rows : List NormalizedMarketSnapshot) :
    FundingBetween (aggregateOf options symbolID snapshotTime now rows) := by
  generalize hkept : rows.filter (!skipped (staleCutoff options snapshotTime now) ·) = kept
  have hsum := foldl_add_view (·.fundingSum) (·.fundingRate) (fun sum v => sum + v.getD 0)
    (fun _ _ => rfl) kept {}
  have hcount := foldl_add_view (·.fundingCount) (·.fundingRate)
    (fun count v => count + if v.isSome then 1 else 0) (fun _ _ => rfl) kept {}
  have hmin := foldl_add_view (·.minFunding) (·.fundingRate) addMin (fun _ _ => rfl) kept {}
  have hmax := foldl_add_view (·.maxFunding) (·.fundingRate) addMax (fun _ _ => rfl) kept {}
  rw [foldl_addFunding, zero_add] at hsum
  rw [foldl_countFunding, zero_add] at hcount
  rw [foldl_addMin] at hmin
  rw [foldl_addMax] at hmax
  simp only [FundingBetween, aggregateOf, resultOf, foldRows, foldl_aggregateRow, hkept, hsum,
    hcount, hmin, hmax]
  generalize (kept.map fun row => row.fundingRate).filterMap id = rates
  by_cases hrates : rates = []
  · exact .inl (by simp [hrates])
  · obtain ⟨lo, hi, hlo, hhi, hle, hge⟩ := between_mean hrates
    refine .inr ⟨lo, _, hi, hlo, ?_, hhi, hle, hge⟩
    rw [if_pos (List.length_pos_iff.2 hrates)]

/-! ## Both -/

/-- **The aggregate of a symbol**, for any order in which the queries return the
    rows: its prices and funding rates lie between the smallest and the greatest,
    it does not depend on the order, and it agrees with the point of the analytics
    at its time. -/
theorem buildLatest_consistent {options : AggregateOptions} {t : MarketSnapshotTable}
    {symbolID snapshotTime now : ℤ} {rows rows' : List NormalizedMarketSnapshot}
    (h : ReadSnapshots options t symbolID (aggregateTime snapshotTime now) rows)
    (h' : ReadSnapshots options t symbolID (aggregateTime snapshotTime now) rows') :
    PricesBetween (aggregateOf options symbolID snapshotTime now rows)
        (includedPrices (staleCutoff options snapshotTime now) rows) ∧
      FundingBetween (aggregateOf options symbolID snapshotTime now rows) ∧
      SameUpToOrder (aggregateOf options symbolID snapshotTime now rows)
        (aggregateOf options symbolID snapshotTime now rows') ∧
      Agrees (aggregateOf options symbolID snapshotTime now rows) (marketAggregateAt rows') := by
  have hsame := sameUpToOrder_of_perm options symbolID snapshotTime now (h.perm h') h.nodup
  refine ⟨pricesBetween _ _ _ _ _, fundingBetween _ _ _ _ _, hsame, ?_⟩
  have hagrees : Agrees (aggregateOf options symbolID snapshotTime now rows') (marketAggregateAt rows') :=
    agrees_of_pointFollows (pointFollows_foldl h'.cutoff_le
      ⟨rfl, rfl, rfl, rfl, rfl, fun _ => rfl, fun _ => rfl⟩)
  -- the fields that the two share are numbers
  obtain ⟨hcount, hprice, hvolume, hOI⟩ := hagrees
  have hnumbers := hsame.numbers
  simp only [DerivativeAggregateSnapshot.numbers, DerivativeAggregateSnapshot.mk.injEq] at hnumbers
  exact ⟨by rw [hnumbers.2.2.1, hcount], by rw [hnumbers.2.2.2.1, hprice],
    by rw [hnumbers.2.2.2.2.2.1, hvolume], by rw [hnumbers.2.2.2.2.2.2.2.1, hOI]⟩

/-- Two exchanges, one of which has no last price and a negative volume. -/
def twoExchanges : MarketSnapshotTable :=
  ⟨[⟨⟨1, "binance", "BTCUSDT"⟩, none, 60 * minute, some 100, none, none, none, none, some 3, some 2,
      none, some 5, some (1 / 100)⟩,
    ⟨⟨1, "okx", "BTC-USDT-SWAP"⟩, none, 59 * minute, none, some 200, none, none, none, some (-1),
      some 6, none, none, some (3 / 100)⟩], by decide⟩

theorem buildLatest_consistent_two :
    ReadSnapshots ⟨0⟩ twoExchanges 1 (60 * minute)
      (latestSnapshots twoExchanges 1 (50 * minute) (60 * minute)) ∧
    PricesBetween (buildLatest ⟨0⟩ twoExchanges 1 (60 * minute) 0)
      (includedPrices (50 * minute) (latestSnapshots twoExchanges 1 (50 * minute) (60 * minute))) ∧
    FundingBetween (buildLatest ⟨0⟩ twoExchanges 1 (60 * minute) 0) ∧
    SameUpToOrder (buildLatest ⟨0⟩ twoExchanges 1 (60 * minute) 0)
      (aggregateOf ⟨0⟩ 1 (60 * minute) 0
        (latestSnapshots twoExchanges 1 (50 * minute) (60 * minute)).reverse) ∧
    Agrees (buildLatest ⟨0⟩ twoExchanges 1 (60 * minute) 0)
      (marketAggregateAt (latestSnapshots twoExchanges 1 (50 * minute) (60 * minute)).reverse) ∧
    (buildLatest ⟨0⟩ twoExchanges 1 (60 * minute) 0).priceWeighted = some 175 := by
  have hread : ReadSnapshots ⟨0⟩ twoExchanges 1 (aggregateTime (60 * minute) 0)
      (latestSnapshots twoExchanges 1 (50 * minute) (60 * minute)) :=
    distinctOn_latestSnapshots twoExchanges 1 (50 * minute) (60 * minute)
  obtain ⟨hprices, hfunding, hsame, hagrees⟩ :=
    buildLatest_consistent hread (hread.of_perm (List.reverse_perm _).symm)
  exact ⟨hread, hprices, hfunding, hsame, hagrees, by decide +kernel⟩

end Aggregator.Repositories
