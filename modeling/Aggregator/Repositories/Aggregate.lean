/-
  The aggregate over the exchanges of a symbol
  (`internal/repositories/aggregate.go`: `BuildLatest`; `aggregate_quality.go`,
  `aggregate_options.go`).

  `BuildLatest` takes the latest market snapshot of each exchange, skips it if
  its raw data is marked as degraded, and adds up what its columns hold.  What
  it adds from the tables of flows, liquidations and order books is in `Enrich`;
  the metrics of its windows are not modelled.

  `buildLatest_mostRecent_iff`: a column is aggregated with its most recent
  value exactly where no newer row without that value, or marked as degraded,
  hides it.
-/
import Aggregator.Repositories.MarketSnapshot
import Mathlib.Data.List.Dedup

namespace Aggregator.Repositories

open Aggregator.Go Aggregator.Normalizers

structure AggregateOptions where
  maxSnapshotAge : ℤ
deriving DecidableEq, Repr

def normalizeAggregateOptions (options : AggregateOptions) : AggregateOptions :=
  if options.maxSnapshotAge ≤ 0 then { options with maxSnapshotAge := 10 * minute } else options

/-! ## Raw data marked as degraded -/

def degradedStatus : Json → Bool
  | .str text => toLower (trimSpace text) ∈ ["degraded", "failed", "invalid", "unhealthy"]
  | _ => false

def boolValue : Json → Bool
  | .bool b => b
  | _ => false

/-- The switch on the key of a member. -/
def memberMarkedDegraded (key : String) (item : Json) : Bool :=
  let normalizedKey := toLower (trimSpace key)
  if normalizedKey ∈ ["quality_status", "data_quality", "normalized_status", "status", "health"] then
    degradedStatus item
  else if normalizedKey ∈ ["degraded", "failed"] then boolValue item
  else false

mutual

def anyMarkedDegraded : Json → Bool
  | .obj fields => fieldsMarkedDegraded fields
  | .arr items => itemsMarkedDegraded items
  | _ => false

def fieldsMarkedDegraded : List (String × Json) → Bool
  | [] => false
  | (key, item) :: fields =>
    memberMarkedDegraded key item || anyMarkedDegraded item || fieldsMarkedDegraded fields

def itemsMarkedDegraded : List Json → Bool
  | [] => false
  | item :: items => anyMarkedDegraded item || itemsMarkedDegraded items

end

/-- `rawJSONMarkedDegraded`: raw data that does not decode is not degraded. -/
def rawJSONMarkedDegraded (raw : Option Json) : Bool :=
  match raw with
  | none => false
  | some value => value.decodes && anyMarkedDegraded value

/-! ## Accumulators -/

/-- The rows that were left out and the columns that were, with the exchange. -/
structure AggregateQualityMetadata where
  maxSnapshotAgeSeconds : ℤ
  snapshotTime : ℤ
  staleCutoff : ℤ
  includedExchanges : List String
  skippedExchanges : List (String × String)
  invalidFields : List (String × String)
deriving DecidableEq, Repr

def newAggregateQualityMetadata (snapshotTime staleCutoff maxAge : ℤ) : AggregateQualityMetadata :=
  ⟨float64ToInt64 (seconds maxAge), snapshotTime, staleCutoff, [], [], []⟩

/-- The variables of the loop over the rows. -/
structure AggregateTotals where
  rawByExchange : List (String × Json) := []
  priceSum : ℚ := 0
  priceCount : ℕ := 0
  weightedNumerator : ℚ := 0
  weightedDenom : ℚ := 0
  totalVolume : ℚ := 0
  totalQuoteVolume : ℚ := 0
  totalOI : ℚ := 0
  totalOIValue : ℚ := 0
  hasOIValue : Bool := false
  fundingSum : ℚ := 0
  fundingCount : ℕ := 0
  minFunding : Option ℚ := none
  maxFunding : Option ℚ := none

/-- The last price, or else the mark price. -/
def snapshotPrice (row : NormalizedMarketSnapshot) : Option ℚ := row.lastPrice.or row.markPrice

def addAmount (total : ℚ) (value : Option ℚ) : ℚ :=
  match value with
  | some q => if 0 ≤ q then total + q else total
  | none => total

/-- The better one of the values so far and a new one. -/
def addBest (better : ℚ → ℚ → Bool) (best value : Option ℚ) : Option ℚ :=
  match best, value with
  | none, value => value
  | some m, some q => some (if better q m then q else m)
  | some m, none => some m

def addMin : Option ℚ → Option ℚ → Option ℚ := addBest (· < ·)

def addMax : Option ℚ → Option ℚ → Option ℚ := addBest (· > ·)

def AggregateTotals.add (acc : AggregateTotals) (row : NormalizedMarketSnapshot) :
    AggregateTotals :=
  let price := (snapshotPrice row).filter fun p => 0 < p
  let weight := row.quoteVolume24h.filter fun q => 0 < q
  let openInterest := row.openInterest.filter fun q => 0 ≤ q
  let hasWeight := price.isSome && weight.isSome
  let hasValue := price.isSome && openInterest.isSome
  { rawByExchange := acc.rawByExchange ++ [(row.exchange, ensureJSON row.rawData)]
    priceSum := acc.priceSum + price.getD 0
    priceCount := acc.priceCount + if price.isSome then 1 else 0
    weightedNumerator :=
      acc.weightedNumerator + if hasWeight then price.getD 0 * weight.getD 0 else 0
    weightedDenom := acc.weightedDenom + if hasWeight then weight.getD 0 else 0
    totalVolume := addAmount acc.totalVolume row.volume24h
    totalQuoteVolume := addAmount acc.totalQuoteVolume row.quoteVolume24h
    totalOI := addAmount acc.totalOI row.openInterest
    totalOIValue :=
      acc.totalOIValue + if hasValue then openInterest.getD 0 * price.getD 0 else 0
    hasOIValue := acc.hasOIValue || hasValue
    fundingSum := acc.fundingSum + row.fundingRate.getD 0
    fundingCount := acc.fundingCount + if row.fundingRate.isSome then 1 else 0
    minFunding := addMin acc.minFunding row.fundingRate
    maxFunding := addMax acc.maxFunding row.fundingRate }

/-- The columns of a row that are not used because of their value. -/
def invalidColumns (row : NormalizedMarketSnapshot) : List String :=
  (if (snapshotPrice row).any (· ≤ 0) then ["price"] else []) ++
  (if row.volume24h.any (· < 0) then ["volume_24h"] else []) ++
  (if row.quoteVolume24h.any (· < 0) then ["quote_volume_24h"] else []) ++
  (if row.openInterest.any (· < 0) then ["open_interest"] else [])

/-- One row of the loop. -/
def aggregateRow (staleCutoff : ℤ) (acc : AggregateTotals × AggregateQualityMetadata)
    (row : NormalizedMarketSnapshot) : AggregateTotals × AggregateQualityMetadata :=
  let totals := acc.1
  let quality := acc.2
  if row.snapshotTime < staleCutoff then
    (totals, { quality with
      skippedExchanges := quality.skippedExchanges ++ [(row.exchange, "stale_snapshot")] })
  else if rawJSONMarkedDegraded row.rawData then
    (totals, { quality with
      skippedExchanges := quality.skippedExchanges ++ [(row.exchange, "degraded_raw_data")] })
  else
    (totals.add row, { quality with
      includedExchanges := quality.includedExchanges ++ [row.exchange]
      invalidFields := quality.invalidFields ++ (invalidColumns row).map (row.exchange, ·) })

/-! ## `BuildLatest` -/

structure DerivativeAggregateSnapshot where
  symbolID : ℤ
  snapshotTime : ℤ
  exchangeCount : ℕ
  priceAvg : Option ℚ
  priceWeighted : Option ℚ
  totalVolume24h : Option ℚ
  totalQuoteVolume24h : Option ℚ
  totalOpenInterest : Option ℚ
  totalOpenInterestValue : Option ℚ
  avgFundingRate : Option ℚ
  minFundingRate : Option ℚ
  maxFundingRate : Option ℚ
  availableExchanges : List String
  rawByExchange : List (String × Json)
  qualityMetadata : AggregateQualityMetadata

/-- The row counts: it is one of the symbol, between the two times. -/
def inWindow (symbolID staleCutoff snapshotTime : ℤ) (row : NormalizedMarketSnapshot) : Bool :=
  row.symbolID = symbolID && row.snapshotTime ≤ snapshotTime && staleCutoff ≤ row.snapshotTime

/-- The latest of the rows that an exchange has in the window. -/
def newest (rows : List NormalizedMarketSnapshot) (symbolID staleCutoff snapshotTime : ℤ)
    (exchange : String) : Option NormalizedMarketSnapshot :=
  (rows.filter fun row => inWindow symbolID staleCutoff snapshotTime row &&
    row.exchange = exchange).argmax NormalizedMarketSnapshot.snapshotTime

/-- The query: `DISTINCT ON (exchange)` in the order of the times. -/
def latestSnapshots (t : MarketSnapshotTable) (symbolID staleCutoff snapshotTime : ℤ) :
    List NormalizedMarketSnapshot :=
  let rows := t.rows.filter (inWindow symbolID staleCutoff snapshotTime)
  ((rows.map fun row => row.exchange).dedup.insertionSort (· ≤ ·)).filterMap
    (newest t.rows symbolID staleCutoff snapshotTime)

/-- The time of an aggregate: now if none is given. -/
def aggregateTime (snapshotTime now : ℤ) : ℤ := if isZero snapshotTime then now else snapshotTime

def staleCutoff (options : AggregateOptions) (snapshotTime now : ℤ) : ℤ :=
  aggregateTime snapshotTime now - (normalizeAggregateOptions options).maxSnapshotAge

/-- The loop of `BuildLatest` over the rows of the query. -/
def aggregateRows (options : AggregateOptions) (t : MarketSnapshotTable)
    (symbolID snapshotTime now : ℤ) : AggregateTotals × AggregateQualityMetadata :=
  let time := aggregateTime snapshotTime now
  let cutoff := staleCutoff options snapshotTime now
  let quality := newAggregateQualityMetadata time cutoff
    (normalizeAggregateOptions options).maxSnapshotAge
  (latestSnapshots t symbolID cutoff time).foldl (aggregateRow cutoff) ({}, quality)

def buildLatest (options : AggregateOptions) (t : MarketSnapshotTable)
    (symbolID snapshotTime now : ℤ) : DerivativeAggregateSnapshot :=
  let totals := (aggregateRows options t symbolID snapshotTime now).1
  let quality := (aggregateRows options t symbolID snapshotTime now).2
  { symbolID := symbolID
    snapshotTime := aggregateTime snapshotTime now
    exchangeCount := quality.includedExchanges.length
    priceAvg := if 0 < totals.priceCount then some (totals.priceSum / totals.priceCount) else none
    priceWeighted := if 0 < totals.weightedDenom then
      some (totals.weightedNumerator / totals.weightedDenom) else none
    totalVolume24h := some totals.totalVolume
    totalQuoteVolume24h := some totals.totalQuoteVolume
    totalOpenInterest := some totals.totalOI
    totalOpenInterestValue := if totals.hasOIValue then some totals.totalOIValue else none
    avgFundingRate := if 0 < totals.fundingCount then
      some (totals.fundingSum / totals.fundingCount) else none
    minFundingRate := totals.minFunding
    maxFundingRate := totals.maxFunding
    availableExchanges := quality.includedExchanges
    rawByExchange := totals.rawByExchange
    qualityMetadata := quality }

/-! ## What is aggregated -/

/-- The columns that are added up, or averaged, over the exchanges. -/
inductive MarketColumn
  | volume24h | quoteVolume24h | openInterest | fundingRate
deriving DecidableEq, Repr

def MarketColumn.value (column : MarketColumn) (row : NormalizedMarketSnapshot) : Option ℚ :=
  match column with
  | volume24h => row.volume24h
  | quoteVolume24h => row.quoteVolume24h
  | openInterest => row.openInterest
  | fundingRate => row.fundingRate

/-- The row is skipped by the loop. -/
def skipped (cutoff : ℤ) (row : NormalizedMarketSnapshot) : Bool :=
  row.snapshotTime < cutoff || rawJSONMarkedDegraded row.rawData

/-- The rows that the loop adds. -/
def included (options : AggregateOptions) (t : MarketSnapshotTable)
    (symbolID snapshotTime now : ℤ) : List NormalizedMarketSnapshot :=
  let cutoff := staleCutoff options snapshotTime now
  (latestSnapshots t symbolID cutoff (aggregateTime snapshotTime now)).filter (!skipped cutoff ·)

/-- The values of a column that the loop adds, with the exchange of each. -/
def aggregated (options : AggregateOptions) (t : MarketSnapshotTable)
    (symbolID snapshotTime now : ℤ) (column : MarketColumn) : List (String × ℚ) :=
  (included options t symbolID snapshotTime now).filterMap fun row =>
    (column.value row).map (row.exchange, ·)

/-- What the result says of a column is computed from these values. -/
def DerivativeAggregateSnapshot.Reports (result : DerivativeAggregateSnapshot)
    (column : MarketColumn) (values : List ℚ) : Prop :=
  match column with
  | .volume24h => result.totalVolume24h = some values.sum
  | .quoteVolume24h => result.totalQuoteVolume24h = some values.sum
  | .openInterest => result.totalOpenInterest = some values.sum
  | .fundingRate =>
    result.avgFundingRate = (if values = [] then none else some (values.sum / values.length)) ∧
      result.minFundingRate = values.min? ∧ result.maxFundingRate = values.max?

/-- The loop adds the rows it does not skip. -/
theorem foldl_aggregateRow (cutoff : ℤ) (rows : List NormalizedMarketSnapshot)
    (acc : AggregateTotals × AggregateQualityMetadata) :
    (rows.foldl (aggregateRow cutoff) acc).1 =
      (rows.filter (!skipped cutoff ·)).foldl AggregateTotals.add acc.1 := by
  induction rows generalizing acc with
  | nil => rfl
  | cons row rows ih =>
    rw [List.foldl_cons, ih]
    by_cases hstale : row.snapshotTime < cutoff
    · simp [aggregateRow, skipped, hstale]
    · by_cases hraw : rawJSONMarkedDegraded row.rawData
      · simp [aggregateRow, skipped, hstale, hraw]
      · simp [aggregateRow, skipped, hstale, hraw]

theorem foldl_addAmount {values : List (Option ℚ)} (h : ∀ v ∈ values, ∀ q ∈ v, 0 ≤ q) (total : ℚ) :
    values.foldl addAmount total = total + (values.filterMap id).sum := by
  induction values generalizing total with
  | nil => simp
  | cons v values ih =>
    rw [List.foldl_cons, ih fun w hw => h w (List.mem_cons_of_mem _ hw)]
    cases v with
    | none => rfl
    | some q =>
      have hq : 0 ≤ q := h _ List.mem_cons_self q rfl
      simp [addAmount, hq, add_assoc]

theorem foldl_addBest {better : ℚ → ℚ → Bool} (op : ℚ → ℚ → ℚ)
    (hop : ∀ m q, (if better q m then q else m) = op m q) (values : List (Option ℚ)) (m : ℚ) :
    values.foldl (addBest better) (some m) = some ((values.filterMap id).foldl op m) := by
  induction values generalizing m with
  | nil => rfl
  | cons v values ih =>
    cases v with
    | none => exact ih m
    | some q =>
      rw [List.foldl_cons, addBest, ih, hop]
      rfl

theorem foldl_addMin (values : List (Option ℚ)) :
    values.foldl addMin none = (values.filterMap id).min? := by
  induction values with
  | nil => rfl
  | cons v values ih =>
    cases v with
    | none => exact ih
    | some q =>
      change values.foldl addMin (some q) = (q :: values.filterMap id).min?
      rw [List.min?_cons', addMin, foldl_addBest min]
      intro m q
      simp [min_comm m q, min_def_lt]

theorem foldl_addMax (values : List (Option ℚ)) :
    values.foldl addMax none = (values.filterMap id).max? := by
  induction values with
  | nil => rfl
  | cons v values ih =>
    cases v with
    | none => exact ih
    | some q =>
      change values.foldl addMax (some q) = (q :: values.filterMap id).max?
      rw [List.max?_cons', addMax, foldl_addBest max]
      intro m q
      simp [max_def_lt]

theorem foldl_addFunding (values : List (Option ℚ)) (sum : ℚ) :
    values.foldl (fun sum v => sum + v.getD 0) sum = sum + (values.filterMap id).sum := by
  induction values generalizing sum with
  | nil => simp
  | cons v values ih =>
    rw [List.foldl_cons, ih]
    cases v <;> simp [add_assoc]

theorem foldl_countFunding (values : List (Option ℚ)) (count : ℕ) :
    values.foldl (fun count v => count + if v.isSome then 1 else 0) count =
      count + (values.filterMap id).length := by
  induction values generalizing count with
  | nil => rfl
  | cons v values ih =>
    rw [List.foldl_cons, ih]
    cases v <;> simp [add_assoc, add_comm]

/-- An accumulator that only a value of the rows is added to is a fold over the
    values. -/
theorem foldl_add_view {β γ : Type} (view : AggregateTotals → β)
    (value : NormalizedMarketSnapshot → γ) (f : β → γ → β)
    (h : ∀ acc row, f (view acc) (value row) = view (acc.add row))
    (rows : List NormalizedMarketSnapshot) (acc : AggregateTotals) :
    view (rows.foldl AggregateTotals.add acc) = (rows.map value).foldl f (view acc) := by
  rw [List.foldl_map]
  exact (List.foldl_hom view h).symm

theorem aggregated_map_snd (options : AggregateOptions) (t : MarketSnapshotTable)
    (symbolID snapshotTime now : ℤ) (column : MarketColumn) :
    (aggregated options t symbolID snapshotTime now column).map Prod.snd =
      ((included options t symbolID snapshotTime now).map column.value).filterMap id := by
  rw [aggregated, List.map_filterMap, List.filterMap_map]
  congr 1
  funext row
  cases hv : column.value row <;> simp [hv]

theorem aggregateRows_fst (options : AggregateOptions) (t : MarketSnapshotTable)
    (symbolID snapshotTime now : ℤ) :
    (aggregateRows options t symbolID snapshotTime now).1 =
      (included options t symbolID snapshotTime now).foldl AggregateTotals.add {} :=
  foldl_aggregateRow _ _ _

/-- The totals of a result are those of the rows it includes. -/
theorem buildLatest_reports {options : AggregateOptions} {t : MarketSnapshotTable}
    {symbolID snapshotTime now : ℤ} (column : MarketColumn)
    (hnonneg : ∀ row ∈ included options t symbolID snapshotTime now,
      column ≠ .fundingRate → ∀ q ∈ column.value row, 0 ≤ q) :
    (buildLatest options t symbolID snapshotTime now).Reports column
      ((aggregated options t symbolID snapshotTime now column).map Prod.snd) := by
  have hamount : column ≠ .fundingRate → (List.map column.value
      (included options t symbolID snapshotTime now)).foldl addAmount 0 =
        ((aggregated options t symbolID snapshotTime now column).map Prod.snd).sum := by
    intro hcolumn
    rw [aggregated_map_snd, foldl_addAmount, zero_add]
    intro v hv q hq
    obtain ⟨row, hrow, rfl⟩ := List.mem_map.1 hv
    exact hnonneg row hrow hcolumn q hq
  have htotals := aggregateRows_fst options t symbolID snapshotTime now
  cases column with
  | volume24h =>
    simp only [DerivativeAggregateSnapshot.Reports, buildLatest, htotals, ← hamount nofun]
    rw [foldl_add_view (·.totalVolume) (MarketColumn.value .volume24h) addAmount fun _ _ => rfl]
  | quoteVolume24h =>
    simp only [DerivativeAggregateSnapshot.Reports, buildLatest, htotals, ← hamount nofun]
    rw [foldl_add_view (·.totalQuoteVolume) (MarketColumn.value .quoteVolume24h) addAmount
      fun _ _ => rfl]
  | openInterest =>
    simp only [DerivativeAggregateSnapshot.Reports, buildLatest, htotals, ← hamount nofun]
    rw [foldl_add_view (·.totalOI) (MarketColumn.value .openInterest) addAmount fun _ _ => rfl]
  | fundingRate =>
    have hsum := foldl_add_view (·.fundingSum) (MarketColumn.value .fundingRate)
      (fun sum v => sum + v.getD 0) (fun _ _ => rfl)
      (included options t symbolID snapshotTime now) {}
    have hcount := foldl_add_view (·.fundingCount) (MarketColumn.value .fundingRate)
      (fun count v => count + if v.isSome then 1 else 0) (fun _ _ => rfl)
      (included options t symbolID snapshotTime now) {}
    have hmin := foldl_add_view (·.minFunding) (MarketColumn.value .fundingRate) addMin
      (fun _ _ => rfl) (included options t symbolID snapshotTime now) {}
    have hmax := foldl_add_view (·.maxFunding) (MarketColumn.value .fundingRate) addMax
      (fun _ _ => rfl) (included options t symbolID snapshotTime now) {}
    rw [foldl_addFunding, zero_add] at hsum
    rw [foldl_countFunding, zero_add] at hcount
    rw [foldl_addMin] at hmin
    rw [foldl_addMax] at hmax
    simp only [DerivativeAggregateSnapshot.Reports, buildLatest, htotals, aggregated_map_snd,
      hsum, hcount, hmin, hmax, and_true]
    cases (List.map (MarketColumn.value .fundingRate)
      (included options t symbolID snapshotTime now)).filterMap id <;> simp

/-! ## The most recent value -/

/-- The row has a value in the column and is not marked as degraded. -/
def fresh (column : MarketColumn) (row : NormalizedMarketSnapshot) : Bool :=
  !rawJSONMarkedDegraded row.rawData && (column.value row).isSome

/-- The most recent value that an exchange has written in the window, in a row
    that is not marked as degraded; of two rows for the same time the one
    written last counts. -/
def mostRecent (writes : List NormalizedMarketSnapshot) (symbolID staleCutoff snapshotTime : ℤ)
    (column : MarketColumn) (exchange : String) : Option ℚ :=
  ((writes.filter fun row => (inWindow symbolID staleCutoff snapshotTime row &&
    row.exchange = exchange) && fresh column row).argmax
      NormalizedMarketSnapshot.snapshotTime).bind column.value

/-- The newest row of an exchange is that of the history. -/
theorem newest_eq {t : MarketSnapshotTable} {writes : List NormalizedMarketSnapshot}
    (h : t.Holds writes) (symbolID staleCutoff snapshotTime : ℤ) (exchange : String) :
    newest t.rows symbolID staleCutoff snapshotTime exchange =
      newest writes symbolID staleCutoff snapshotTime exchange := by
  refine Table.argmax_eq h ?_ ?_ ?_
  · intro a b hk
    simp only [snapshotKey, SnapshotKey.mk.injEq] at hk
    obtain ⟨hid, hex, ht⟩ := hk
    simp only [inWindow, hid, hex, ht]
  · intro a b hk
    exact congrArg SnapshotKey.snapshotTime hk
  · intro a b ha hb ht
    simp only [inWindow, Bool.and_eq_true, decide_eq_true_eq] at ha hb
    obtain ⟨⟨⟨hida, -⟩, -⟩, hexa⟩ := ha
    obtain ⟨⟨⟨hidb, -⟩, -⟩, hexb⟩ := hb
    simp only [snapshotKey, SnapshotKey.mk.injEq]
    exact ⟨hida.trans hidb.symm, hexa.trans hexb.symm, ht⟩

theorem mem_latestSnapshots {t : MarketSnapshotTable} {symbolID staleCutoff snapshotTime : ℤ}
    {row : NormalizedMarketSnapshot} :
    row ∈ latestSnapshots t symbolID staleCutoff snapshotTime ↔
      newest t.rows symbolID staleCutoff snapshotTime row.exchange = some row := by
  have hexchange : ∀ {e s}, newest t.rows symbolID staleCutoff snapshotTime e = some s →
      s ∈ t.rows ∧ inWindow symbolID staleCutoff snapshotTime s ∧ s.exchange = e := by
    intro e s h
    obtain ⟨hs, hsel⟩ := List.mem_filter.1 (List.argmax_mem h)
    obtain ⟨hwin, hex⟩ := Bool.and_eq_true_iff.1 hsel
    exact ⟨hs, hwin, of_decide_eq_true hex⟩
  simp only [latestSnapshots, List.mem_filterMap, List.mem_insertionSort, List.mem_dedup,
    List.mem_map, List.mem_filter]
  constructor
  · rintro ⟨e, -, h⟩
    rwa [(hexchange h).2.2]
  · intro h
    obtain ⟨hrow, hwin, -⟩ := hexchange h
    exact ⟨row.exchange, ⟨row, ⟨hrow, hwin⟩, rfl⟩, h⟩

/-- What is aggregated for an exchange is the value of its newest row. -/
theorem mem_aggregated {options : AggregateOptions} {t : MarketSnapshotTable}
    {writes : List NormalizedMarketSnapshot} (h : t.Holds writes) {symbolID snapshotTime now : ℤ}
    {column : MarketColumn} {exchange : String} {q : ℚ} :
    (exchange, q) ∈ aggregated options t symbolID snapshotTime now column ↔
      ∃ row, newest writes symbolID (staleCutoff options snapshotTime now)
          (aggregateTime snapshotTime now) exchange = some row ∧
        rawJSONMarkedDegraded row.rawData = false ∧ column.value row = some q := by
  simp only [aggregated, included, List.mem_filterMap, List.mem_filter, mem_latestSnapshots,
    newest_eq h, Option.map_eq_some_iff, Prod.mk.injEq]
  constructor
  · rintro ⟨row, ⟨hrow, hskip⟩, q', hq, rfl, rfl⟩
    refine ⟨row, hrow, ?_, hq⟩
    simp only [skipped, Bool.not_or, Bool.and_eq_true] at hskip
    simpa using hskip.2
  · rintro ⟨row, hrow, hraw, hq⟩
    obtain ⟨-, hsel⟩ := List.mem_filter.1 (List.argmax_mem hrow)
    simp only [inWindow, Bool.and_eq_true, decide_eq_true_eq] at hsel
    obtain ⟨⟨-, hcutoff⟩, rfl⟩ := hsel
    refine ⟨row, ⟨hrow, ?_⟩, q, hq, rfl, rfl⟩
    simp [skipped, hraw, hcutoff]

/-- The most recent value is that of the newest row, if that row has one. -/
theorem mostRecent_of_fresh {writes : List NormalizedMarketSnapshot}
    {symbolID staleCutoff snapshotTime : ℤ} {column : MarketColumn} {exchange : String}
    {row : NormalizedMarketSnapshot}
    (hrow : newest writes symbolID staleCutoff snapshotTime exchange = some row)
    (hfresh : fresh column row) :
    mostRecent writes symbolID staleCutoff snapshotTime column exchange = column.value row := by
  have hmax := argmax_filter hrow hfresh
  rw [List.filter_filter] at hmax
  simp only [mostRecent, Bool.and_comm _ (fresh column _), hmax, Option.bind_some]

/-- An exchange that has written a value has a newest row. -/
theorem exists_newest {writes : List NormalizedMarketSnapshot}
    {symbolID staleCutoff snapshotTime : ℤ} {column : MarketColumn} {exchange : String} {q : ℚ}
    (h : mostRecent writes symbolID staleCutoff snapshotTime column exchange = some q) :
    ∃ row, newest writes symbolID staleCutoff snapshotTime exchange = some row := by
  obtain ⟨row, hrow, -⟩ := Option.bind_eq_some_iff.1 h
  obtain ⟨hmem, hsel⟩ := List.mem_filter.1 (List.argmax_mem hrow)
  refine Option.ne_none_iff_exists'.1 fun hnone => ?_
  rw [newest, List.argmax_eq_none, List.filter_eq_nil_iff] at hnone
  exact hnone row hmem (Bool.and_eq_true_iff.1 hsel).1

/-- The rows of the table have passed the checks. -/
theorem included_nonneg {history : List (List NormalizedMarketSnapshot)}
    {options : AggregateOptions} {symbolID snapshotTime now : ℤ} {column : MarketColumn}
    {row : NormalizedMarketSnapshot}
    (hrow : row ∈ included options (afterUpserts history) symbolID snapshotTime now)
    (hcolumn : column ≠ .fundingRate) : ∀ q ∈ column.value row, 0 ≤ q := by
  have hlatest := mem_latestSnapshots.1 (List.mem_filter.1 hrow).1
  rw [newest_eq (history_holds history)] at hlatest
  obtain ⟨s, hs, rfl⟩ :=
    exists_of_mem_written (List.mem_filter.1 (List.argmax_mem hlatest)).1
  have hvalid : validateMarketSnapshot s = .ok () := by
    obtain ⟨hv, -⟩ := Bool.and_eq_true_iff.1 hs
    cases hcheck : validateMarketSnapshot s with
    | error e => rw [hcheck] at hv; cases hv
    | ok _ => rfl
  obtain ⟨hvolume, hquote, hoi⟩ := validateMarketSnapshot_ok hvalid
  cases column with
  | volume24h => exact hvolume
  | quoteVolume24h => exact hquote
  | openInterest => exact hoi
  | fundingRate => exact absurd rfl hcolumn

/-- **The most recent value** of a column is aggregated for every exchange that
    has written one in the window, exactly if the newest row of every such
    exchange has a value in the column and is not marked as degraded. -/
theorem buildLatest_mostRecent_iff (options : AggregateOptions)
    (history : List (List NormalizedMarketSnapshot)) (symbolID snapshotTime now : ℤ)
    (column : MarketColumn) :
    let time := aggregateTime snapshotTime now
    let cutoff := staleCutoff options snapshotTime now
    let values := aggregated options (afterUpserts history) symbolID snapshotTime now column
    (buildLatest options (afterUpserts history) symbolID snapshotTime now).Reports column
        (values.map Prod.snd) ∧
      ((∀ exchange q, mostRecent (written history) symbolID cutoff time column exchange = some q →
          (exchange, q) ∈ values) ↔
        ∀ exchange row, newest (written history) symbolID cutoff time exchange = some row →
          (mostRecent (written history) symbolID cutoff time column exchange).isSome →
          fresh column row) := by
  intro time cutoff values
  refine ⟨buildLatest_reports column fun row hrow hcolumn => included_nonneg hrow hcolumn, ?_⟩
  constructor
  · intro h exchange row hrow hsome
    obtain ⟨q, hq⟩ := Option.isSome_iff_exists.1 hsome
    obtain ⟨row', hrow', hraw, hvalue⟩ := (mem_aggregated (history_holds history)).1 (h exchange q hq)
    obtain rfl : row = row' := Option.some.inj (hrow.symm.trans hrow')
    simp [fresh, hraw, hvalue]
  · intro h exchange q hq
    obtain ⟨row, hrow⟩ := exists_newest hq
    have hfresh := h exchange row hrow (hq ▸ rfl)
    rw [mostRecent_of_fresh hrow hfresh] at hq
    refine (mem_aggregated (history_holds history)).2 ⟨row, hrow, ?_, hq⟩
    simpa using (Bool.and_eq_true_iff.1 hfresh).1

/-! ### A hidden value -/

/-- A ticker of binance with a volume. -/
def tickerSnapshot : NormalizedMarketSnapshot :=
  { symbolID := 1, exchange := "binance", sourceSymbol := "BTCUSDT", rawData := none
    snapshotTime := 60 * second, lastPrice := some 100, markPrice := none, indexPrice := none
    bidPrice := none, askPrice := none, volume24h := some 5, quoteVolume24h := some 500
    priceChangePercent24h := none, openInterest := none, fundingRate := none }

/-- Its mark price, a minute later. -/
def markPriceSnapshot : NormalizedMarketSnapshot :=
  { tickerSnapshot with
    snapshotTime := 120 * second, lastPrice := none, markPrice := some 101
    volume24h := none, quoteVolume24h := none }

/-- The mark price hides the volume of the ticker. -/
theorem markPrice_hides_volume :
    mostRecent (written [[tickerSnapshot], [markPriceSnapshot]]) 1
        (staleCutoff ⟨10 * minute⟩ (180 * second) 0) (180 * second) .volume24h "binance" = some 5 ∧
      (buildLatest ⟨10 * minute⟩ (afterUpserts [[tickerSnapshot], [markPriceSnapshot]]) 1
        (180 * second) 0).totalVolume24h = some 0 ∧
      aggregated ⟨10 * minute⟩ (afterUpserts [[tickerSnapshot], [markPriceSnapshot]]) 1
        (180 * second) 0 .volume24h = [] := by
  decide +kernel

end Aggregator.Repositories
