/-
  What an aggregate takes from the tables of flows, liquidations, basis and order
  books (`internal/repositories/aggregate.go`: `enrichAdvanced`), and the value of
  the analytics at one time (`aggregate_analytics.go`: `cvdAggregateAt`).

  Four of the queries read the newest row of each exchange.  Rows of an exchange that
  differ in the period only can have the same time; then the database may take any of
  them, so the rows read are a relation (`ReadLatest`).

  The query of the liquidations compares `bucket_time` with `$2 - interval '5 minutes'`.
  Postgres takes `$2` for an interval there, and refuses the query
  (`prepare_liquidationStatement`).  `enrichAdvanced` has set the flows and `TotalCVD` by
  then, and returns.

  * `enrichAdvanced_eq`: what every call returns and leaves in the snapshot;
  * `enrichAdvanced_disagrees`: so the values of an aggregate never agree with those of
    the analytics;
  * `totalCVD_agrees`: `TotalCVD` does, if no row it is read from has a bad status.
-/
import Aggregator.Lib.DistinctOn
import Aggregator.Lib.Effect
import Aggregator.Postgres.Parameters
import Aggregator.Repositories.Aggregate
import Aggregator.Repositories.Windows

namespace Aggregator.Repositories

open Aggregator.Go Aggregator.Normalizers Aggregator.Postgres

/-! ## Aggregate functions -/

/-- `COALESCE(SUM(value), 0)`. -/
def sumOrZero (values : List (Option ℚ)) : ℚ := (values.map fun value => value.getD 0).sum

/-- `COALESCE(SUM(CASE WHEN value >= 0 THEN value ELSE 0 END), 0)`. -/
def sumNonNegative (values : List (Option ℚ)) : ℚ :=
  (values.map fun value => (value.filter fun q => 0 ≤ q).getD 0).sum

/-- `AVG(value)`: of the values that are not `NULL`. -/
def avgOf (values : List (Option ℚ)) : Option ℚ :=
  let present := values.filterMap id
  if present.isEmpty then none else some (present.sum / present.length)

/-! ## The tables -/

/-- The tables that `enrichAdvanced` reads. -/
structure AdvancedDB where
  takerFlows : TakerFlowTable
  cvd : CvdTable
  liquidations : Table bucketKey
  basisPremiums : List NormalizedBasisPremium
  orderbooks : List NormalizedOrderbookImbalance
  /-- The column `raw_data` of `cvd_snapshots`. -/
  cvdRaw : CvdKey → Json
  /-- The column `raw_data` of `liquidation_aggregates`. -/
  liquidationRaw : BucketKey → Json

/-- The rows of the symbol between the two times. -/
def recentRows {ρ : Type} (symbol time : ρ → ℤ) (rows : List ρ) (symbolID cutoff snapshotTime : ℤ) : List ρ :=
  rows.filter fun r => symbol r = symbolID && time r ≤ snapshotTime && cutoff ≤ time r

/-- The rows of `cvd_snapshots` that `enrichAdvanced` reads. -/
def recentCVD (options : AggregateOptions) (db : AdvancedDB) (symbolID snapshotTime : ℤ) :
    List NormalizedCVD :=
  recentRows (·.symbolID) (·.snapshotTime) db.cvd.rows symbolID
    (snapshotTime - (normalizeAggregateOptions options).maxSnapshotAge) snapshotTime

/-- Those that `cvdAggregateAt` reads. -/
def goodCVD (options : AggregateOptions) (db : AdvancedDB) (symbolID snapshotTime : ℤ) :
    List NormalizedCVD :=
  (recentCVD options db symbolID snapshotTime).filter fun r => !statusLeftOut (db.cvdRaw (cvdKey r))

/-- The newest row of each exchange. -/
structure LatestRows where
  takerFlows : List NormalizedTakerFlow
  cvd : List NormalizedCVD
  basisPremiums : List NormalizedBasisPremium
  orderbooks : List NormalizedOrderbookImbalance

/-- The rows may be what the four queries `latest` of `enrichAdvanced` return. -/
structure ReadLatest (options : AggregateOptions) (db : AdvancedDB) (symbolID snapshotTime : ℤ)
    (latest : LatestRows) : Prop where
  takerFlows : DistinctOn (·.exchange) (·.snapshotTime)
    (recentRows (·.symbolID) (·.snapshotTime) db.takerFlows.rows symbolID
      (snapshotTime - (normalizeAggregateOptions options).maxSnapshotAge) snapshotTime) latest.takerFlows
  cvd : DistinctOn (·.exchange) (·.snapshotTime) (recentCVD options db symbolID snapshotTime) latest.cvd
  basisPremiums : DistinctOn (·.exchange) (·.snapshotTime)
    (recentRows (·.symbolID) (·.snapshotTime) db.basisPremiums symbolID
      (snapshotTime - (normalizeAggregateOptions options).maxSnapshotAge) snapshotTime) latest.basisPremiums
  orderbooks : DistinctOn (·.exchange) (·.snapshotTime)
    (recentRows (·.symbolID) (·.snapshotTime) db.orderbooks symbolID
      (snapshotTime - (normalizeAggregateOptions options).maxSnapshotAge) snapshotTime) latest.orderbooks

/-! ## The functions -/

/-- The columns of a `DerivativeAggregateSnapshot` that `enrichAdvanced` sets. -/
structure EnrichedSnapshot extends DerivativeAggregateSnapshot where
  totalTakerBuyVolume : Option ℚ
  totalTakerSellVolume : Option ℚ
  totalBuySellDelta : Option ℚ
  totalCVD : Option ℚ
  totalLongLiquidationUSD : Option ℚ
  totalShortLiquidationUSD : Option ℚ
  totalLiquidationUSD : Option ℚ
  avgBasisPercent : Option ℚ
  avgOrderbookImbalancePercent : Option ℚ
  totalBidDepthUSD : Option ℚ
  totalAskDepthUSD : Option ℚ

/-- The snapshot that `BuildLatest` passes on, in which they are not set. -/
def DerivativeAggregateSnapshot.plain (snapshot : DerivativeAggregateSnapshot) : EnrichedSnapshot :=
  { snapshot with
    totalTakerBuyVolume := none
    totalTakerSellVolume := none
    totalBuySellDelta := none
    totalCVD := none
    totalLongLiquidationUSD := none
    totalShortLiquidationUSD := none
    totalLiquidationUSD := none
    avgBasisPercent := none
    avgOrderbookImbalancePercent := none
    totalBidDepthUSD := none
    totalAskDepthUSD := none }

/-- `symbol_id = $1 AND snapshot_time <= $2 AND snapshot_time >= $3`, in four of the
    queries. -/
def latestStatement : StatementText where
  expressions := [.binary .eq (.typed .bigint) (.param 1),
    .binary .le (.typed .timestamptz) (.param 2), .binary .ge (.typed .timestamptz) (.param 3)]
  arguments := []
  columns := []

/-- `symbol_id = $1 AND bucket_time >= $2 - interval '5 minutes' AND bucket_time <= $2`. -/
def liquidationStatement : StatementText where
  expressions := [.binary .eq (.typed .bigint) (.param 1),
    .binary .ge (.typed .timestamptz) (.binary .minus (.param 2) (.typed .interval)),
    .binary .le (.typed .timestamptz) (.param 2)]
  arguments := []
  columns := []

theorem prepare_latestStatement :
    latestStatement.prepare = .ok [(3, .timestamptz), (2, .timestamptz), (1, .bigint)] := by
  decide +kernel

/-- An interval is subtracted from an interval, and the difference is no time. -/
theorem prepare_liquidationStatement : liquidationStatement.prepare =
    .error "pq: operator does not exist: timestamp with time zone >= interval" := by
  decide +kernel

/-- The liquidations of the last five minutes, both ends included. -/
def lastLiquidations (db : AdvancedDB) (symbolID snapshotTime : ℤ) : List NormalizedLiquidationAggregate :=
  db.liquidations.rows.filter fun r =>
    r.symbolID = symbolID && snapshotTime - 5 * minute ≤ r.bucketTime && r.bucketTime ≤ snapshotTime

/-- A query that Postgres accepts, or its error. -/
def query (text : StatementText) (context : String) : ExceptT String (StateM EnrichedSnapshot) Unit :=
  ExceptT.mk fun snapshot => (text.prepare.map (fun _ => ()) |>.mapError (context ++ ·), snapshot)

/-- The values of a query are scanned into the snapshot. -/
def scan (set : EnrichedSnapshot → EnrichedSnapshot) : ExceptT String (StateM EnrichedSnapshot) Unit :=
  ExceptT.mk fun snapshot => (.ok (), set snapshot)

def enrichAdvanced (db : AdvancedDB) (latest : LatestRows) :
    ExceptT String (StateM EnrichedSnapshot) Unit := do
  query latestStatement "query aggregate taker flow: "
  scan fun s =>
    { s with
      totalTakerBuyVolume := some (sumNonNegative (latest.takerFlows.map (·.takerBuyVolume)))
      totalTakerSellVolume := some (sumNonNegative (latest.takerFlows.map (·.takerSellVolume)))
      totalBuySellDelta := some (sumOrZero (latest.takerFlows.map (·.buySellDelta))) }
  query latestStatement "query aggregate cvd: "
  scan fun s => { s with totalCVD := some (sumOrZero (latest.cvd.map (·.cvdValue))) }
  query liquidationStatement "query aggregate liquidation: "
  scan fun s =>
    let liquidations := lastLiquidations db s.symbolID s.snapshotTime
    { s with
      totalLongLiquidationUSD :=
        some (sumNonNegative (liquidations.map fun r => some r.longLiquidationUSD))
      totalShortLiquidationUSD :=
        some (sumNonNegative (liquidations.map fun r => some r.shortLiquidationUSD))
      totalLiquidationUSD :=
        some (sumNonNegative (liquidations.map fun r => some r.totalLiquidationUSD)) }
  query latestStatement "query aggregate basis: "
  scan fun s => { s with avgBasisPercent := avgOf (latest.basisPremiums.map (·.basisPercent)) }
  query latestStatement "query aggregate orderbook: "
  scan fun s =>
    { s with
      avgOrderbookImbalancePercent := avgOf (latest.orderbooks.map (·.imbalancePercent))
      totalBidDepthUSD := some (sumNonNegative (latest.orderbooks.map (·.bidDepthUSD)))
      totalAskDepthUSD := some (sumNonNegative (latest.orderbooks.map (·.askDepthUSD))) }

/-- `cvdAggregateAt`, of the rows that its query `latest` returns. -/
def cvdAggregateAt (latest : List NormalizedCVD) : Option ℚ :=
  some (sumOrZero (latest.map (·.cvdValue)))

/-! ## What a call does -/

theorem exec_query_of_ok {text : StatementText} {types : ParamTypes} (h : text.prepare = .ok types)
    (context : String) (snapshot : EnrichedSnapshot) :
    exec (query text context) snapshot = (.ok (), snapshot) := by
  show (Except.mapError (context ++ ·) (text.prepare.map fun _ => ()), snapshot) = _
  rw [h]
  rfl

theorem exec_query_of_error {text : StatementText} {message : String}
    (h : text.prepare = .error message) (context : String) (snapshot : EnrichedSnapshot) :
    exec (query text context) snapshot = (.error (context ++ message), snapshot) := by
  show (Except.mapError (context ++ ·) (text.prepare.map fun _ => ()), snapshot) = _
  rw [h]
  rfl

theorem exec_scan (set : EnrichedSnapshot → EnrichedSnapshot) (snapshot : EnrichedSnapshot) :
    exec (scan set) snapshot = (.ok (), set snapshot) := rfl

/-- **Every call fails at the liquidations**, and has set the flows and `TotalCVD`. -/
theorem enrichAdvanced_eq (db : AdvancedDB) (latest : LatestRows) (snapshot : EnrichedSnapshot) :
    exec (enrichAdvanced db latest) snapshot =
      (.error ("query aggregate liquidation: " ++
        "pq: operator does not exist: timestamp with time zone >= interval"),
      { snapshot with
        totalTakerBuyVolume := some (sumNonNegative (latest.takerFlows.map (·.takerBuyVolume)))
        totalTakerSellVolume := some (sumNonNegative (latest.takerFlows.map (·.takerSellVolume)))
        totalBuySellDelta := some (sumOrZero (latest.takerFlows.map (·.buySellDelta)))
        totalCVD := some (sumOrZero (latest.cvd.map (·.cvdValue))) }) := by
  rw [enrichAdvanced, exec_bind_ok (exec_query_of_ok prepare_latestStatement _ _),
    exec_bind_ok (exec_scan _ _), exec_bind_ok (exec_query_of_ok prepare_latestStatement _ _),
    exec_bind_ok (exec_scan _ _),
    exec_bind_error (exec_query_of_error prepare_liquidationStatement _ _)]

/-- **The values never agree**: whatever is stored, a call fails and leaves
    `TotalLiquidationUSD` unset, which is not the sum of the last five minutes. -/
theorem enrichAdvanced_disagrees (db : AdvancedDB) (snapshot : DerivativeAggregateSnapshot)
    (latest : LatestRows) (good : List NormalizedCVD) :
    (exec (enrichAdvanced db latest) snapshot.plain).1.isOk = false ∧
    ¬((exec (enrichAdvanced db latest) snapshot.plain).2.totalLiquidationUSD =
        some (windowLiquidationSum db.liquidationRaw db.liquidations.rows snapshot.symbolID
          (snapshot.snapshotTime - 5 * minute) snapshot.snapshotTime) ∧
      (exec (enrichAdvanced db latest) snapshot.plain).2.totalCVD = cvdAggregateAt good) := by
  rw [enrichAdvanced_eq]
  refine ⟨rfl, ?_⟩
  rintro ⟨hliquidation, -⟩
  cases hliquidation

/-! ## Cumulative volume deltas -/

/-- The value of a row that counts. -/
def cvdAmount (r : NormalizedCVD) : ℚ := r.cvdValue.getD 0

theorem sumOrZero_cvdValue (rows : List NormalizedCVD) :
    sumOrZero (rows.map (·.cvdValue)) = (rows.map cvdAmount).sum := by
  rw [sumOrZero, List.map_map]
  rfl

/-- **`TotalCVD` is the value of the analytics** if no recent row of the symbol has a
    bad status, and the newest rows of an exchange, of several periods, agree. -/
theorem totalCVD_agrees {options : AggregateOptions} {db : AdvancedDB}
    {snapshot : DerivativeAggregateSnapshot} {latest : LatestRows} {good : List NormalizedCVD}
    (hlatest : ReadLatest options db snapshot.symbolID snapshot.snapshotTime latest)
    (hgood : DistinctOn (·.exchange) (·.snapshotTime)
      (goodCVD options db snapshot.symbolID snapshot.snapshotTime) good)
    (hstatus : ∀ r ∈ recentCVD options db snapshot.symbolID snapshot.snapshotTime,
      statusLeftOut (db.cvdRaw (cvdKey r)) = false)
    (hties : TiesAgree (·.exchange) (·.snapshotTime) cvdAmount
      (recentCVD options db snapshot.symbolID snapshot.snapshotTime)) :
    (exec (enrichAdvanced db latest) snapshot.plain).2.totalCVD = cvdAggregateAt good := by
  have hrows : goodCVD options db snapshot.symbolID snapshot.snapshotTime =
      recentCVD options db snapshot.symbolID snapshot.snapshotTime := by
    refine List.filter_eq_self.2 fun r hr => ?_
    rw [hstatus r hr]
    rfl
  rw [hrows] at hgood
  rw [enrichAdvanced_eq, cvdAggregateAt]
  dsimp only
  rw [sumOrZero_cvdValue, sumOrZero_cvdValue, hlatest.cvd.sum_eq hties, hgood.sum_eq hties]

/-! ### A newest value that is marked as failed -/

/-- A liquidation of exactly five minutes ago, and a newest value marked as failed. -/
def failedCVD : AdvancedDB where
  takerFlows := .empty
  cvd := ⟨[⟨⟨1, "binance", "BTCUSDT"⟩, "5m", 60 * minute, some 5, none, none, none, none, none⟩],
    List.nodup_singleton _⟩
  liquidations := ⟨[⟨⟨1, "binance", "BTCUSDT"⟩, "5m", 55 * minute, 1, 0, 100, 0, 100, 100, 0, 100, 100⟩],
    List.nodup_singleton _⟩
  basisPremiums := []
  orderbooks := []
  cvdRaw := fun _ => .obj [("status", .str "failed")]
  liquidationRaw := fun _ => .obj []

/-- The call sets the value that the analytics leave out, and no sum of liquidations. -/
theorem failedCVD_disagrees :
    ReadLatest ⟨0⟩ failedCVD 1 (60 * minute) ⟨[], failedCVD.cvd.rows, [], []⟩ ∧
    DistinctOn (·.exchange) (·.snapshotTime) (goodCVD ⟨0⟩ failedCVD 1 (60 * minute)) [] ∧
    (exec (enrichAdvanced failedCVD ⟨[], failedCVD.cvd.rows, [], []⟩)
      (buildLatest ⟨0⟩ .empty 1 (60 * minute) 0).plain).1.isOk = false ∧
    (exec (enrichAdvanced failedCVD ⟨[], failedCVD.cvd.rows, [], []⟩)
      (buildLatest ⟨0⟩ .empty 1 (60 * minute) 0).plain).2.totalLiquidationUSD = none ∧
    windowLiquidationSum failedCVD.liquidationRaw failedCVD.liquidations.rows 1 (55 * minute)
      (60 * minute) = 0 ∧
    (exec (enrichAdvanced failedCVD ⟨[], failedCVD.cvd.rows, [], []⟩)
      (buildLatest ⟨0⟩ .empty 1 (60 * minute) 0).plain).2.totalCVD = some 5 ∧
    cvdAggregateAt [] = some 0 := by
  have hcvd : recentCVD ⟨0⟩ failedCVD 1 (60 * minute) = failedCVD.cvd.rows := by decide
  have hgood : goodCVD ⟨0⟩ failedCVD 1 (60 * minute) = [] := by decide +kernel
  rw [enrichAdvanced_eq]
  refine ⟨⟨.nil, ?_, .nil, .nil⟩, ?_, rfl, rfl, by decide +kernel, by decide +kernel,
    by decide +kernel⟩
  · rw [hcvd]
    exact .singleton _
  · rw [hgood]
    exact .nil

end Aggregator.Repositories
