/-
  Gaps after the latest row of a series (`internal/repositories/data_gaps.go`:
  `InsertStaleLatestGaps`).

  For a series whose latest row is older than two intervals the statement stores a
  gap from that row to the time of the call, under a digest of both ends.  But its
  text casts the time of the call, `$3`, to text before it stores it in `gap_end`,
  so that Postgres refuses the statement (`prepare_staleStatement`).

  * `insertStaleLatestGaps_refused`: every call fails;
  * `stale_never_recorded`: whatever calls are made, no gap of a series is there
    after any of them.
-/
import Aggregator.Postgres.Parameters
import Aggregator.Repositories.DataGaps
import Mathlib.Data.List.Dedup
import Mathlib.Data.List.MinMax

namespace Aggregator.Repositories

open Aggregator.Go Aggregator.Postgres

/-- The tables that are looked at. -/
inductive SnapshotTable
  | derivativeMarketSnapshots
  | openInterestSnapshots
  | fundingRateSnapshots
  | derivativeAggregatedSnapshots
deriving DecidableEq, Repr

/-- The table of a data type; the time column is always `snapshot_time`. -/
def staleSpec (dataType : String) : Option SnapshotTable :=
  if dataType = "ticker" ∨ dataType = "market_snapshot" then some .derivativeMarketSnapshots
  else if dataType = "open_interest" then some .openInterestSnapshots
  else if dataType = "funding" then some .fundingRateSnapshots
  else if dataType = "aggregated_snapshot" then some .derivativeAggregatedSnapshots
  else none

/-- The columns the query reads. -/
structure Observation where
  symbolID : ℤ
  exchange : String
  sourceSymbol : String
  observedAt : ℤ
deriving DecidableEq, Repr

structure SnapshotTables where
  derivativeMarketSnapshots : List Observation
  openInterestSnapshots : List Observation
  fundingRateSnapshots : List Observation

/-- The rows of a table.  `derivative_aggregated_snapshots` has no columns
    `exchange` and `source_symbol`. -/
def SnapshotTables.rows (tables : SnapshotTables) : SnapshotTable → Except String (List Observation)
  | .derivativeMarketSnapshots => .ok tables.derivativeMarketSnapshots
  | .openInterestSnapshots => .ok tables.openInterestSnapshots
  | .fundingRateSnapshots => .ok tables.fundingRateSnapshots
  | .derivativeAggregatedSnapshots => .error "pq: column \"exchange\" does not exist"

/-- Where the statement has its parameters: `observed_at < $1`, then in the list of
    columns `… || exchange || $2 || observed_at::text || $3::text`, and `$2`, `$3`
    and `$4` by themselves. -/
def staleStatement : StatementText where
  expressions := [.binary .lt (.typed .timestamptz) (.param 1),
    .binary .concat (.binary .concat (.binary .concat (.typed .text) (.param 2)) (.typed .text))
      (.cast (.param 3) .text)]
  arguments := []
  columns := [("data_type", .text, .param 2), ("gap_end", .timestamptz, .param 3),
    ("expected_interval_seconds", .integer, .param 4)]

/-- `$3` is text from its cast on, and there it does not fit the column. -/
theorem prepare_staleStatement : staleStatement.prepare =
    .error "pq: column \"gap_end\" is of type timestamp with time zone but expression is of type text" := by
  decide +kernel

/-- `SELECT DISTINCT ON (symbol_id, exchange) ... ORDER BY symbol_id, exchange,
    snapshot_time DESC`. -/
def latest (rows : List Observation) : List Observation :=
  (rows.map fun r => (r.symbolID, r.exchange)).dedup.filterMap fun series =>
    (rows.filter fun r => (r.symbolID, r.exchange) = series).argmax (·.observedAt)

section
variable (text : ℤ → String)

def staleGapKey (dataType : String) (symbolID : ℤ) (exchange : String) (observedAt now : ℤ) :
    String :=
  md5 (toString symbolID ++ exchange ++ dataType ++ text observedAt ++ text now)

def staleGapRow (dataType : String) (expected now : ℤ) (r : Observation) : GapRow where
  gapKey := staleGapKey text dataType r.symbolID r.exchange r.observedAt now
  symbolID := r.symbolID
  exchange := r.exchange
  dataType := dataType
  period := none
  gapStart := r.observedAt
  gapEnd := now
  expectedIntervalSeconds := some expected
  lastObservedAt := some r.observedAt
  metadata := .obj [("source_symbol", .str r.sourceSymbol), ("detector", .str "stale_latest")]

/-- The rows of the query. -/
def staleGaps (dataType : String) (expected staleBefore now : ℤ) (rows : List Observation) :
    List GapRow :=
  ((latest rows).filter fun r => r.observedAt < staleBefore).map
    (staleGapRow text dataType expected now)

/-- `InsertStaleLatestGaps`, at the time `clock`. -/
def insertStaleLatestGaps (clock : ℤ) (dataType : String) (expectedInterval now : ℤ)
    (tables : SnapshotTables) (gaps : GapTable) : Except String GapTable :=
  let now := callTime clock now
  match staleSpec dataType with
  | none => .error s!"unsupported stale data type {dataType.quote}"
  | some table =>
    let staleBefore := now + wrap64 (-2 * expectedInterval)
    let expected := intervalSeconds expectedInterval
    let executed : Except String GapTable := do
      let rows ← tables.rows table
      let _ ← staleStatement.prepare
      if !int4 expected then .error "pq: value out of range for type integer"
      else insertGaps (staleGaps text dataType expected staleBefore now rows) gaps
    executed.mapError ("insert stale latest gaps: " ++ ·)

/-! ## Every call fails -/

/-- **The statement is never executed**: for the tables that have its columns it is
    refused because of `$3`. -/
theorem insertStaleLatestGaps_refused (clock : ℤ) (dataType : String) (expectedInterval now : ℤ)
    (tables : SnapshotTables) (gaps : GapTable) :
    ∃ message, insertStaleLatestGaps text clock dataType expectedInterval now tables gaps =
      .error message := by
  simp only [insertStaleLatestGaps, prepare_staleStatement]
  cases staleSpec dataType with
  | none => exact ⟨_, rfl⟩
  | some table => cases table <;> exact ⟨_, rfl⟩

end

/-! ## Series of calls -/

/-- A call, and what is stored when it is made. -/
structure StaleCall where
  clock : ℤ
  now : ℤ
  tables : SnapshotTables

namespace StaleCall

def time (c : StaleCall) : ℤ := callTime c.clock c.now

/-- The rows a call looks at. -/
def rows (c : StaleCall) (dataType : String) : List Observation :=
  ((staleSpec dataType).bind fun table => (c.tables.rows table).toOption).getD []

end StaleCall

section
variable (text : ℤ → String) (dataType : String) (d : ℤ)

/-- A call that fails leaves the table as it is. -/
def staleRun (gaps : GapTable) (c : StaleCall) : GapTable :=
  match insertStaleLatestGaps text c.clock dataType d c.now c.tables gaps with
  | .ok gaps => gaps
  | .error _ => gaps

def staleRuns (calls : List StaleCall) (gaps : GapTable) : GapTable :=
  calls.foldl (staleRun text dataType d) gaps

variable (symbolID : ℤ) (exchange : String) (observedAt : ℤ)

/-- The row is a gap of the series that starts at its latest row. -/
def IsGapOf (g : GapRow) : Prop :=
  g.symbolID = symbolID ∧ g.exchange = exchange ∧ g.dataType = dataType ∧ g.gapStart = observedAt

instance (g : GapRow) : Decidable (IsGapOf dataType symbolID exchange observedAt g) :=
  inferInstanceAs (Decidable (_ ∧ _))

/-- The series has got no row after `observedAt`, two intervals before the
    call. -/
structure Stopped (c : StaleCall) : Prop where
  observed : ∃ r ∈ c.rows dataType, r.symbolID = symbolID ∧ r.exchange = exchange ∧
    r.observedAt = observedAt
  latest : ∀ r ∈ c.rows dataType, r.symbolID = symbolID → r.exchange = exchange →
    r.observedAt ≤ observedAt
  stale : observedAt + 2 * d < c.time

/-- One row for the series, up to the time of the call. -/
def OneRow (c : StaleCall) (gaps : GapTable) : Prop :=
  ∃ g, gaps.rows.filter (IsGapOf dataType symbolID exchange observedAt ·) = [g] ∧ g.gapEnd = c.time

theorem staleRun_eq (gaps : GapTable) (c : StaleCall) : staleRun text dataType d gaps c = gaps := by
  obtain ⟨message, hrefused⟩ :=
    insertStaleLatestGaps_refused text c.clock dataType d c.now c.tables gaps
  rw [staleRun, hrefused]

theorem staleRuns_eq (calls : List StaleCall) (gaps : GapTable) :
    staleRuns text dataType d calls gaps = gaps := by
  induction calls with
  | nil => rfl
  | cons c calls ih => rwa [staleRuns, List.foldl_cons, staleRun_eq]

/-- **No gap is ever recorded**: after each call of any series of them, from an
    empty table on, the call has failed, the table is empty, and there is not the
    one row of the series up to the time of the call. -/
theorem stale_never_recorded (before : List StaleCall) (c : StaleCall) :
    (∃ message, insertStaleLatestGaps text c.clock dataType d c.now c.tables
      (staleRuns text dataType d before .empty) = .error message) ∧
    (staleRuns text dataType d (before ++ [c]) .empty).rows = [] ∧
    ¬OneRow dataType symbolID exchange observedAt c
      (staleRuns text dataType d (before ++ [c]) .empty) := by
  rw [staleRuns_eq, staleRuns_eq]
  refine ⟨insertStaleLatestGaps_refused text c.clock dataType d c.now c.tables .empty, rfl, ?_⟩
  rintro ⟨g, hone, -⟩
  cases hone

end

/-! ### A ticker that has stopped -/

/-- The only row of a table with tickers, of the start of 2026. -/
def lastTicker : Observation := ⟨1, "binance", "BTCUSDT", dayOfDate ⟨2026, 1, 1⟩ * day⟩

/-- A call three minutes later. -/
def thirdMinute : StaleCall where
  clock := 0
  now := lastTicker.observedAt + 3 * minute
  tables := ⟨[lastTicker], [], []⟩

theorem stopped_thirdMinute :
    Stopped "ticker" minute 1 "binance" lastTicker.observedAt thirdMinute where
  observed := ⟨lastTicker, List.mem_singleton_self _, rfl, rfl, rfl⟩
  latest := by
    intro r hr _ _
    rw [List.mem_singleton.1 hr]
  stale := by decide +kernel

/-- The first call leaves no row. -/
theorem first_call_refused :
    Stopped "ticker" minute 1 "binance" lastTicker.observedAt thirdMinute ∧
    (insertStaleLatestGaps timestamptzText 0 "ticker" minute thirdMinute.now
      thirdMinute.tables .empty).map (·.rows.length) =
      .error ("insert stale latest gaps: pq: column \"gap_end\" is of type " ++
        "timestamp with time zone but expression is of type text") ∧
    (staleRuns timestamptzText "ticker" minute [thirdMinute] .empty).rows.length = 0 ∧
    ¬OneRow "ticker" 1 "binance" lastTicker.observedAt thirdMinute
      (staleRuns timestamptzText "ticker" minute [thirdMinute] .empty) := by
  refine ⟨stopped_thirdMinute, by decide +kernel, by rw [staleRuns_eq]; rfl, ?_⟩
  rw [staleRuns_eq]
  rintro ⟨g, hone, -⟩
  cases hone

end Aggregator.Repositories
