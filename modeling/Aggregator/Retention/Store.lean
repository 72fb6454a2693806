/-
  The database as the retention engine sees it, and the statements of its store
  (`internal/retention/store.go`, `sql.go`, `rollup.go`).

  A row of a retention table has a `Slot`, the columns by which the engine
  selects rows and the partition that holds it, and a `Candle`, the other columns
  of `derivative_klines`; no statement reads the candle of a row of another
  table.  A statement is a function of the database that rejects or changes it,
  never both.

  * `deleteChunk` is the chunked `DELETE`, restricted by `retentionWhere`;
  * `dropPartition` is `DROP TABLE` of a child, with all its rows;
  * `executeKlineRollup` groups the closed source candles before the cutoff by
    bucket and writes each group's aggregate over the target candle of the
    bucket, if there is one; `upsertKlineRollup`, the call, is refused before that.
-/
import Aggregator.Lib.Table
import Aggregator.Postgres.Parameters
import Aggregator.Retention.Models
import Aggregator.Retention.Partitions
import Mathlib.Data.List.MinMax

namespace Aggregator.Retention

open Aggregator.Go Aggregator.Postgres

/-- Schema and name of a child table. -/
abbrev PartitionName := String × String

/-- The columns by which the engine selects rows.  `time` is the time column of
    the table; `expiresAt` is `retention_expires_at`, a second one that only
    `raw_exchange_payloads` has. -/
structure Slot where
  id : ℤ
  partition : Option PartitionName
  time : ℤ
  expiresAt : Option ℤ
  interval : String
deriving DecidableEq, Repr

structure Candle where
  symbolID : ℤ
  exchange : String
  marketType : String
  sourceSymbol : String
  closeTime : ℤ
  openPrice : ℚ
  highPrice : ℚ
  lowPrice : ℚ
  closePrice : ℚ
  volume : Option ℚ
  quoteVolume : Option ℚ
  tradeCount : Option ℤ
  takerBuyVolume : Option ℚ
  takerBuyQuoteVolume : Option ℚ
  isClosed : Bool
deriving DecidableEq, Repr

structure Row extends Slot where
  candle : Candle
deriving DecidableEq, Repr

/-- The primary key. -/
def Row.key (r : Row) : ℤ := r.id

inductive RunStatus where
  | running | succeeded | failed
deriving DecidableEq, Repr

/-- A row of `data_cleanup_runs`. -/
structure CleanupRun where
  runKey : String
  policyID : ℤ
  tableName : String
  status : RunStatus
  dryRun : Bool
  cutoffTime : ℤ
  rowsMatched : ℤ
  rowsDeleted : ℤ
  errorMessage : Option String
deriving DecidableEq, Repr

/-- A row of `data_rollup_runs`. -/
structure RollupRun where
  runKey : String
  policyID : ℤ
  sourceTable : String
  targetTable : String
  period : String
  status : RunStatus
  windowStart : ℤ
  windowEnd : ℤ
  rowsRead : ℤ
  rowsWritten : ℤ
  errorMessage : Option String
deriving DecidableEq, Repr

/-- The database.  `route` is the child into which a new row of
    `derivative_klines` with a given open time goes. -/
structure DB where
  tables : String → Table Row.key
  partitions : String → List PartitionName
  route : ℤ → Option PartitionName
  cleanupRuns : Table CleanupRun.runKey
  rollupRuns : Table RollupRun.runKey

/-- A statement returns a value and the changed database, or is rejected. -/
abbrev Statement (α : Type) := DB → Except String (α × DB)

def DB.setTable (db : DB) (name : String) (t : Table Row.key) : DB :=
  { db with tables := fun n => if n = name then t else db.tables n }

@[simp] theorem DB.setTable_self (db : DB) (name : String) (t : Table Row.key) :
    (db.setTable name t).tables name = t := by simp [DB.setTable]

/-! ## Counting and deleting -/

/-- The value of a time column. -/
def Slot.timeColumn (x : Slot) (column : String) : Option ℤ :=
  if column = "retention_expires_at" then x.expiresAt else some x.time

/-- The `WHERE` clause `retentionWhereSQL` builds; a comparison with `NULL` does
    not hold. -/
def retentionWhere (policy : Policy) (cutoff : ℤ) (x : Slot) : Bool :=
  (x.timeColumn policy.timeColumn).any (· < cutoff) &&
    (policy.intervalColumn = "" || x.interval = policy.intervalValue)

def countEligible (policy : Policy) (cutoff : ℤ) : Statement ℤ := fun db =>
  .ok (((db.tables policy.tableName).rows.filter (retentionWhere policy cutoff ·.toSlot)).length,
    db)

/-- The ids the subquery of the chunked `DELETE` selects. -/
def chunkIDs (policy : Policy) (cutoff chunkSize : ℤ) (t : Table Row.key) : List ℤ :=
  let eligible := t.rows.filter (retentionWhere policy cutoff ·.toSlot)
  let ordered := eligible.insertionSort fun r s =>
    (r.timeColumn policy.timeColumn).getD 0 ≤ (s.timeColumn policy.timeColumn).getD 0
  (ordered.take chunkSize.toNat).map Row.key

def deleteChunk (policy : Policy) (cutoff chunkSize : ℤ) : Statement ℤ := fun db =>
  let t := db.tables policy.tableName
  let ids := chunkIDs policy cutoff chunkSize t
  .ok (ids.length, db.setTable policy.tableName (t.delete (·.key ∈ ids)))

/-- Whether the name of a child gives a range that ends by the cutoff. -/
def eligiblePartition (policy : Policy) (cutoff : ℤ) (p : PartitionName) : Bool :=
  (parsePartitionRange policy.tableName p.2).any (·.2 ≤ cutoff)

def listEligiblePartitions (policy : Policy) (cutoff : ℤ) : Statement (List PartitionName) :=
  fun db => .ok ((db.partitions policy.tableName).filter (eligiblePartition policy cutoff), db)

/-- `DROP TABLE IF EXISTS`: the child goes with its rows. -/
def dropPartition (p : PartitionName) : Statement Unit := fun db =>
  .ok ((), { db with
    tables := fun name => (db.tables name).delete (·.partition = some p)
    partitions := fun name => (db.partitions name).filter (· ≠ p) })

/-! ## The rollup of candles -/

structure RollupSpec where
  sourceInterval : String
  targetInterval : String
  bucketSeconds : ℤ
deriving DecidableEq, Repr

def klineRollups : List RollupSpec :=
  [⟨"1m", "5m", 5 * 60⟩, ⟨"5m", "15m", 15 * 60⟩, ⟨"15m", "1h", 60 * 60⟩,
   ⟨"1h", "4h", 4 * 60 * 60⟩, ⟨"4h", "1d", 24 * 60 * 60⟩]

def klineRollup (interval : String) : Option RollupSpec :=
  klineRollups.find? (·.sourceInterval = interval)

/-- The instant of the Unix epoch. -/
def unixEpoch : ℤ := 62135596800 * second

/-- `to_timestamp(floor(extract(epoch FROM t) / b) * b)`. -/
def bucketTime (bucketSeconds t : ℤ) : ℤ :=
  unixEpoch + (t - unixEpoch) / (bucketSeconds * second) * (bucketSeconds * second)

/-- `SUM`, which skips `NULL` and is `NULL` when there is nothing else. -/
def sqlSum {α : Type} [Zero α] [Add α] (xs : List (Option α)) : Option α :=
  match xs.reduceOption with
  | [] => none
  | ys => some ys.sum

/-- The columns of the rows of one group other than the time. -/
structure Group where
  symbolID : ℤ
  exchange : String
  marketType : String
  sourceSymbol : String
  bucketTime : ℤ
deriving DecidableEq, Repr

def RollupSpec.group (spec : RollupSpec) (r : Row) : Group where
  symbolID := r.candle.symbolID
  exchange := r.candle.exchange
  marketType := r.candle.marketType
  sourceSymbol := r.candle.sourceSymbol
  bucketTime := Retention.bucketTime spec.bucketSeconds r.time

/-- The select list of `grouped`: the first open, the last close, the extremes,
    and the sums of the rows of a group. -/
def Group.aggregate (g : Group) (rows : List Row) : Candle where
  symbolID := g.symbolID
  exchange := g.exchange
  marketType := g.marketType
  sourceSymbol := g.sourceSymbol
  closeTime := (rows.map (·.candle.closeTime)).max?.getD 0
  openPrice := ((rows.argmin (·.time)).map (·.candle.openPrice)).getD 0
  highPrice := (rows.map (·.candle.highPrice)).max?.getD 0
  lowPrice := (rows.map (·.candle.lowPrice)).min?.getD 0
  closePrice := ((rows.argmax (·.time)).map (·.candle.closePrice)).getD 0
  volume := sqlSum (rows.map (·.candle.volume))
  quoteVolume := sqlSum (rows.map (·.candle.quoteVolume))
  tradeCount := sqlSum (rows.map (·.candle.tradeCount))
  takerBuyVolume := sqlSum (rows.map (·.candle.takerBuyVolume))
  takerBuyQuoteVolume := sqlSum (rows.map (·.candle.takerBuyQuoteVolume))
  isClosed := true

/-- The common table expression `eligible`. -/
def RollupSpec.eligible (spec : RollupSpec) (cutoff : ℤ) (t : Table Row.key) : List Row :=
  t.rows.filter fun r =>
    r.interval = spec.sourceInterval && r.time < cutoff && r.candle.isClosed

/-- The common table expression `grouped`: its groups and their aggregates. -/
def RollupSpec.grouped (spec : RollupSpec) (cutoff : ℤ) (t : Table Row.key) :
    List (Group × Candle) :=
  let rows := spec.eligible cutoff t
  (rows.map spec.group).dedup.map fun g => (g, g.aggregate (rows.filter (spec.group · = g)))

/-- The columns of the unique index of `derivative_klines`. -/
structure ConflictKey where
  symbolID : ℤ
  exchange : String
  interval : String
  openTime : ℤ
deriving DecidableEq, Repr

def Row.conflictKey (r : Row) : ConflictKey :=
  ⟨r.candle.symbolID, r.candle.exchange, r.interval, r.time⟩

def RollupSpec.conflictKey (spec : RollupSpec) (g : Group) : ConflictKey :=
  ⟨g.symbolID, g.exchange, spec.targetInterval, g.bucketTime⟩

/-- The row after `DO UPDATE`: the open price stays. -/
def Row.rolledUp (excluded : Candle) (r : Row) : Row :=
  { r with
    candle := { r.candle with
      closeTime := excluded.closeTime
      highPrice := excluded.highPrice
      lowPrice := excluded.lowPrice
      closePrice := excluded.closePrice
      volume := excluded.volume
      quoteVolume := excluded.quoteVolume
      tradeCount := excluded.tradeCount
      takerBuyVolume := excluded.takerBuyVolume
      takerBuyQuoteVolume := excluded.takerBuyQuoteVolume
      isClosed := true } }

theorem Row.rolledUp_key (c : Candle) (r : Row) : (r.rolledUp c).key = r.key := rfl

/-- An id the table does not hold. -/
def freshID (t : Table Row.key) : ℤ := (t.rows.map Row.key).foldr max 0 + 1

def RollupSpec.newRow (spec : RollupSpec) (route : ℤ → Option PartitionName) (t : Table Row.key)
    (g : Group) (c : Candle) : Row where
  id := freshID t
  partition := route g.bucketTime
  time := g.bucketTime
  expiresAt := none
  interval := spec.targetInterval
  candle := c

/-- The `INSERT ... ON CONFLICT DO UPDATE` of one group. -/
def RollupSpec.upsertGroup (spec : RollupSpec) (route : ℤ → Option PartitionName)
    (t : Table Row.key) (g : Group × Candle) : Table Row.key :=
  if t.rows.any (·.conflictKey = spec.conflictKey g.1) then
    t.update (·.conflictKey = spec.conflictKey g.1) (Row.rolledUp g.2) (Row.rolledUp_key g.2)
  else t.insertNew (spec.newRow route t g.1 g.2)

/-- The candles after the upsert of all groups. -/
def RollupSpec.rolledUp (spec : RollupSpec) (cutoff : ℤ) (route : ℤ → Option PartitionName)
    (t : Table Row.key) : Table Row.key :=
  (spec.grouped cutoff t).foldl (spec.upsertGroup route) t

/-- No two groups write the same row. -/
def RollupSpec.accepts (spec : RollupSpec) (cutoff : ℤ) (t : Table Row.key) : Bool :=
  ((spec.grouped cutoff t).map (spec.conflictKey ·.1)).Nodup

/-- Start and number of the source candles before the cutoff. -/
def klineRollupWindow (spec : RollupSpec) (cutoff : ℤ) : Statement (ℤ × ℤ) := fun db =>
  let rows := spec.eligible cutoff (db.tables "derivative_klines")
  .ok (((rows.map (·.time)).min?.getD cutoff, rows.length), db)

/-- What the text of the rollup statement asks for; two groups must not write the
    same row. -/
def executeKlineRollup (spec : RollupSpec) (cutoff : ℤ) : Statement ℤ := fun db =>
  let t := db.tables "derivative_klines"
  if spec.accepts cutoff t then
    .ok ((spec.grouped cutoff t).length,
      db.setTable "derivative_klines" (spec.rolledUp cutoff db.route t))
  else .error "pq: ON CONFLICT DO UPDATE command cannot affect row a second time"

/-- Where it has its parameters: `floor(extract(epoch FROM open_time) / $1) * $1`,
    `"interval" = $2`, `open_time < $3`, the arguments of `jsonb_build_object`, which takes
    values of any type, and the column that `$4` is stored in. -/
def rollupStatement : StatementText where
  expressions := [.binary .times (.binary .div (.typed .numeric) (.param 1)) (.param 1),
    .binary .eq (.typed .text) (.param 2), .binary .lt (.typed .timestamptz) (.param 3)]
  arguments := [.param 2, .param 4]
  columns := [("interval", .text, .param 4)]

/-- `$4` has no type where it is an argument. -/
theorem prepare_rollupStatement :
    rollupStatement.prepare = .error "pq: could not determine data type of parameter $4" := by
  decide +kernel

def upsertKlineRollup (spec : RollupSpec) (cutoff : ℤ) : Statement ℤ := fun db => do
  let _ ← rollupStatement.prepare
  executeKlineRollup spec cutoff db

/-- **Postgres does not come to execute it.** -/
theorem upsertKlineRollup_eq (spec : RollupSpec) (cutoff : ℤ) : upsertKlineRollup spec cutoff =
    fun _ => .error "pq: could not determine data type of parameter $4" := by
  funext db
  rw [upsertKlineRollup, prepare_rollupStatement]
  rfl

/-! ## The audit tables -/

def CleanupRun.restart (new old : CleanupRun) : CleanupRun :=
  { old with
    status := .running
    dryRun := new.dryRun
    cutoffTime := new.cutoffTime
    errorMessage := none }

theorem CleanupRun.restart_runKey (new old : CleanupRun) :
    (restart new old).runKey = old.runKey := rfl

def CleanupRun.finish (status : RunStatus) (rowsMatched rowsDeleted : ℤ) (errorMessage : String)
    (r : CleanupRun) : CleanupRun :=
  { r with
    status := status
    rowsMatched := rowsMatched
    rowsDeleted := rowsDeleted
    errorMessage := if errorMessage = "" then none else some errorMessage }

theorem CleanupRun.finish_runKey (status : RunStatus) (m d : ℤ) (e : String) (r : CleanupRun) :
    (r.finish status m d e).runKey = r.runKey := rfl

def startCleanupRun (runKey : String) (policy : Policy) (cutoff : ℤ) (dryRun : Bool) :
    Statement Unit := fun db =>
  let new : CleanupRun :=
    ⟨runKey, policy.id, policy.tableName, .running, dryRun, cutoff, 0, 0, none⟩
  .ok ((), { db with
    cleanupRuns := db.cleanupRuns.upsert new (CleanupRun.restart new)
      (CleanupRun.restart_runKey new) })

def finishCleanupRun (runKey : String) (status : RunStatus) (rowsMatched rowsDeleted : ℤ)
    (errorMessage : String) : Statement Unit := fun db =>
  .ok ((), { db with
    cleanupRuns := db.cleanupRuns.update (·.runKey = runKey)
      (CleanupRun.finish status rowsMatched rowsDeleted errorMessage)
      (CleanupRun.finish_runKey status rowsMatched rowsDeleted errorMessage) })

def RollupRun.restart (new old : RollupRun) : RollupRun :=
  { old with
    status := .running
    windowStart := new.windowStart
    windowEnd := new.windowEnd
    errorMessage := none }

theorem RollupRun.restart_runKey (new old : RollupRun) :
    (restart new old).runKey = old.runKey := rfl

def RollupRun.finish (status : RunStatus) (rowsRead rowsWritten : ℤ) (errorMessage : String)
    (r : RollupRun) : RollupRun :=
  { r with
    status := status
    rowsRead := rowsRead
    rowsWritten := rowsWritten
    errorMessage := if errorMessage = "" then none else some errorMessage }

theorem RollupRun.finish_runKey (status : RunStatus) (n w : ℤ) (e : String) (r : RollupRun) :
    (r.finish status n w e).runKey = r.runKey := rfl

def startRollupRun (runKey : String) (policy : Policy) (spec : RollupSpec)
    (windowStart windowEnd : ℤ) : Statement Unit := fun db =>
  let new : RollupRun :=
    ⟨runKey, policy.id, policy.tableName, "derivative_klines", spec.sourceInterval, .running,
      windowStart, windowEnd, 0, 0, none⟩
  .ok ((), { db with
    rollupRuns := db.rollupRuns.upsert new (RollupRun.restart new)
      (RollupRun.restart_runKey new) })

def finishRollupRun (runKey : String) (status : RunStatus) (rowsRead rowsWritten : ℤ)
    (errorMessage : String) : Statement Unit := fun db =>
  .ok ((), { db with
    rollupRuns := db.rollupRuns.update (·.runKey = runKey)
      (RollupRun.finish status rowsRead rowsWritten errorMessage)
      (RollupRun.finish_runKey status rowsRead rowsWritten errorMessage) })

theorem mem_chunkIDs {policy : Policy} {cutoff chunkSize : ℤ} {t : Table Row.key} {r : Row}
    (hr : r ∈ t) (h : r.key ∈ chunkIDs policy cutoff chunkSize t) :
    retentionWhere policy cutoff r.toSlot := by
  obtain ⟨s, hs, hk⟩ := List.mem_map.1 h
  have hs := List.mem_of_mem_take hs
  rw [List.mem_insertionSort, List.mem_filter] at hs
  obtain rfl := Table.eq_of_key hs.1 hr hk
  exact hs.2

end Aggregator.Retention
