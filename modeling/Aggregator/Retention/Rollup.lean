/-
  What the target candles hold after a sequence of rollup runs.

  A run that finds source candles before its cutoff comes to the rollup statement,
  which is refused, and so it removes nothing; a run that finds none has nothing to
  remove.

  * `cleanup_of_rolls`: whatever store calls fail, the stages of a run leave a table
    of closed source candles as it is;
  * `Progress.rolled_of_run`: in every run of rollups with non-decreasing cutoffs,
    every stored target candle is the aggregate of all source candles of its bucket
    before the latest cutoff, and the candles are those of the beginning.
-/
import Aggregator.Lib.Run
import Aggregator.Retention.Frame

namespace Aggregator.Retention

open Aggregator.Go

/-- The source candles of a bucket before a cutoff, out of a list. -/
def RollupSpec.candlesOf (spec : RollupSpec) (rows : List Row) (cutoff bucket : ℤ) : List Row :=
  rows.filter fun r => r.time < cutoff && bucketTime spec.bucketSeconds r.time = bucket

def Candle.series (c : Candle) : ℤ × String × String × String :=
  (c.symbolID, c.exchange, c.marketType, c.sourceSymbol)

/-- A table of closed source candles of one series. -/
structure OneSeries (spec : RollupSpec) (t : Table Row.key) : Prop where
  source : ∀ r ∈ t, r.interval = spec.sourceInterval
  closed : ∀ r ∈ t, r.candle.isClosed
  series : ∀ r ∈ t, ∀ r' ∈ t, r.candle.series = r'.candle.series

/-- The group of a target candle. -/
def Row.group (r : Row) : Group :=
  ⟨r.candle.symbolID, r.candle.exchange, r.candle.marketType, r.candle.sourceSymbol, r.time⟩

/-- Every target candle is the aggregate of all candles of its bucket before the
    latest cutoff, out of the initial ones. -/
def Rolled (spec : RollupSpec) (t₀ t : Table Row.key) (latest : Option ℤ) : Prop :=
  ∀ r ∈ t, r.interval = spec.targetInterval → ∃ c ∈ latest,
    spec.candlesOf t₀.rows c r.time ≠ [] ∧
      r.candle = r.group.aggregate (spec.candlesOf t₀.rows c r.time)

/-! ## The removal of candles -/

/-- The candle table only loses rows, and those it loses satisfy `p`. -/
def Shrinks (p : Row → Prop) (db db' : DB) : Prop :=
  ∃ q : Row → Bool, (db'.tables "derivative_klines").rows =
    (db.tables "derivative_klines").rows.filter q ∧
      ∀ r ∈ db.tables "derivative_klines", q r = false → p r

section
variable {p : Row → Prop}

theorem Shrinks.of_sameData {db db' : DB} (h : SameData db db') : Shrinks p db db' :=
  ⟨fun _ => true, by rw [h.tables]; simp, by simp⟩

instance : Std.Refl (Shrinks p) := ⟨fun _ => .of_sameData (Std.Refl.refl _)⟩

instance : IsTrans DB (Shrinks p) := by
  refine ⟨?_⟩
  rintro db db' db'' ⟨q, hq, hp⟩ ⟨q', hq', hp'⟩
  refine ⟨fun r => q' r && q r, by rw [hq', hq, List.filter_filter], fun r hr h => ?_⟩
  by_cases hqr : q r
  · have hr' : r ∈ (db'.tables "derivative_klines").rows := hq ▸ List.mem_filter.2 ⟨hr, hqr⟩
    exact hp' r hr' (by simpa [hqr] using h)
  · exact hp r hr (by simpa using hqr)

theorem shrinks_deleteChunk {policy : Policy} {cutoff : ℤ}
    (hname : policy.tableName = "derivative_klines")
    (h : ∀ r : Row, retentionWhere policy cutoff r.toSlot → p r) (n : ℤ) :
    Changes (Shrinks p) (deleteChunk policy cutoff n) := by
  intro db a db' hs
  simp only [deleteChunk, Except.ok.injEq, Prod.mk.injEq] at hs
  rw [← hs.2, hname]
  refine ⟨fun r => !decide (r.key ∈ chunkIDs policy cutoff n (db.tables "derivative_klines")),
    by rw [DB.setTable_self]; rfl, fun r hr hq => ?_⟩
  exact h r (mem_chunkIDs hr (by simpa using hq))

theorem shrinks_dropPartition {q : PartitionName}
    (h : ∀ r : Row, r.partition = some q → p r) : Changes (Shrinks p) (dropPartition q) := by
  intro db a db' hs
  simp only [dropPartition, Except.ok.injEq, Prod.mk.injEq] at hs
  rw [← hs.2]
  exact ⟨fun r => !decide (r.partition = some q), rfl, fun r _ hr => h r (by simpa using hr)⟩

end

/-! ## Sequences of runs -/

/-- One run of the engine on a plan item, and the store calls that fail in it. -/
structure Cleanup where
  faults : Faults
  opts : EngineOptions
  item : PlanItem

/-- The run is of a valid policy that rolls up candles with `spec` and is not
    dry. -/
def Cleanup.Rolls (spec : RollupSpec) (l : Cleanup) : Prop :=
  (validatePolicy l.item.policy).isOk ∧ l.item.policy.tableName = "derivative_klines" ∧
    l.item.policy.rollupBeforeDelete ∧ l.item.dryRun = false ∧
    klineRollup l.item.policy.intervalValue = some spec

instance (spec : RollupSpec) (l : Cleanup) : Decidable (l.Rolls spec) :=
  inferInstanceAs (Decidable (_ ∧ _))

section
variable {spec : RollupSpec} {l : Cleanup} {db₀ : DB}

/-- The time column of a candle policy is the open time. -/
theorem timeColumn_of_rolls (h : l.Rolls spec) (x : Slot) :
    x.timeColumn l.item.policy.timeColumn = some x.time := by
  obtain ⟨hv, hname, -⟩ := h
  cases hok : validatePolicy l.item.policy with
  | error e => rw [hok] at hv; cases hv
  | ok spec' =>
    obtain ⟨hspec, hcol, -⟩ := validatePolicy_iff.1 hok
    rw [hname] at hspec
    have hk : specFor (toLower (trimSpace "derivative_klines")) =
        some ⟨"derivative_klines", ["open_time"], ["interval"], 7, true⟩ := by rfl
    rw [hk] at hspec
    obtain rfl := Option.some.inj hspec
    rw [List.mem_singleton.1 hcol]
    rfl

/-- What a run removes of the initial candles is before its cutoff. -/
theorem shrinks_removeRows (h : l.Rolls spec)
    (hpart : db₀.Partitioned "derivative_klines" "open_time") (s : Session) :
    Shrinks (fun r => r ∈ db₀.tables "derivative_klines" → r.time < l.item.cutoffTime) s.db
      (exec (removeRows l.faults l.opts l.item) s).2.db := by
  refine effect_removeRows l.faults l.opts
    (fun _ p hp => shrinks_dropPartition fun r hr hmem => ?_)
    (shrinks_deleteChunk h.2.1 fun r hr _ => ?_) s
  · rw [eligiblePartition, h.2.1] at hp
    obtain ⟨range, hrange, hend⟩ := (Option.any_eq_true _ _).1 hp
    obtain ⟨τ, hτ, -, hlt⟩ := (hpart r hmem p hr).2 range hrange
    obtain rfl : r.time = τ := Option.some.inj hτ
    exact hlt.trans_le (by simpa using hend)
  · rw [retentionWhere, timeColumn_of_rolls h, Bool.and_eq_true] at hr
    simpa using hr.1

def SameCandles (db db' : DB) : Prop :=
  db'.tables "derivative_klines" = db.tables "derivative_klines"

theorem SameCandles.trans {db db' db'' : DB} (h : SameCandles db db')
    (h' : SameCandles db' db'') : SameCandles db db'' := Eq.trans h' h

instance : Std.Refl SameCandles := ⟨fun _ => rfl⟩

instance : IsTrans DB SameCandles := ⟨fun _ _ _ => SameCandles.trans⟩

theorem SameCandles.of_sameData {db db' : DB} (h : SameData db db') : SameCandles db db' :=
  congrFun h.tables _

/-- Removing what is not there. -/
theorem Shrinks.sameCandles {p : Row → Prop} {db db' : DB} (h : Shrinks p db db')
    (hno : ∀ r ∈ db.tables "derivative_klines", ¬p r) : SameCandles db db' := by
  obtain ⟨q, hq, hp⟩ := h
  refine Table.ext (hq.trans (List.filter_eq_self.2 fun r hr => ?_))
  by_contra hqr
  exact hno r hr (hp r hr (by simpa using hqr))

/-- **The stages of a run**: the rows are removed only where the rollup found no
    source candle before the cutoff. -/
theorem cleanup_of_rolls (h : l.Rolls spec) (h₀ : OneSeries spec (db₀.tables "derivative_klines"))
    (hpart : db₀.Partitioned "derivative_klines" "open_time") {s : Session}
    (hs : SameCandles db₀ s.db) :
    OnDB SameCandles s (exec (cleanup l.faults l.opts l.item) s).2 := by
  refine Effect.bind_at (effect_checkDiskPressure l.opts s) fun _ s₁ h₁ => ?_
  have hs₁ := effect_checkDiskPressure (R := SameCandles) l.opts s
  rw [h₁] at hs₁
  refine Effect.bind_at (effect_matchRows l.faults l.item s₁) fun _ s₂ h₂ => ?_
  have hs₂ := effect_matchRows (R := SameCandles) l.faults l.item s₁
  rw [h₂] at hs₂
  have hroll := effect_rollupRows (R := SameCandles) l.faults
    (fun _ _ h => .of_sameData h.sameData) l.item s₂
  refine Effect.bind_at hroll fun _ s₃ h₃ => ?_
  rw [h₃] at hroll
  have hsame₂ : SameCandles db₀ s₂.db := (hs.trans hs₁).trans hs₂
  obtain ⟨-, -, hbefore, hdry, hspec⟩ := id h
  -- the rollup went through, so the stage saw no source candle before the cutoff
  obtain ⟨-, spec', hspec', hnil⟩ := rollupIdle_of_ok hbefore hdry h₃
  rw [hspec] at hspec'
  obtain rfl := Option.some.inj hspec'
  rw [hsame₂] at hnil
  have hsame₃ : SameCandles db₀ s₃.db := hsame₂.trans hroll
  refine (shrinks_removeRows h hpart s₃).sameCandles fun r hr hp => ?_
  rw [hsame₃] at hr
  have helig : r ∈ spec.eligible l.item.cutoffTime (db₀.tables "derivative_klines") := by
    refine List.mem_filter.2 ⟨hr, ?_⟩
    simp [h₀.source r hr, h₀.closed r hr, hp hr]
  rw [hnil] at helig
  cases helig

end

/-- The database, and the cutoff of the latest run. -/
structure Progress where
  db : DB
  latest : Option ℤ

namespace Progress
variable {spec : RollupSpec} {s t : Progress} {l : Cleanup}

/-- A run whose cutoff is not before the latest one. -/
def advance (spec : RollupSpec) (s : Progress) (l : Cleanup) : Option Progress :=
  if l.Rolls spec ∧ ∀ c ∈ s.latest, c ≤ l.item.cutoffTime then
    some ⟨(runPlanItem l.faults l.opts l.item s.db).2, some l.item.cutoffTime⟩
  else none

def Step (spec : RollupSpec) (s : Progress) (l : Cleanup) (t : Progress) : Prop :=
  advance spec s l = some t

/-- Every stored target candle is the aggregate of all source candles of its
    bucket before the latest cutoff, deleted or not. -/
def UpToDate (spec : RollupSpec) (db₀ : DB) (s : Progress) : Prop :=
  Rolled spec (db₀.tables "derivative_klines") (s.db.tables "derivative_klines") s.latest

theorem target_ne_source (h : spec ∈ klineRollups) :
    spec.targetInterval ≠ spec.sourceInterval := by
  have hall : ∀ s ∈ klineRollups, s.targetInterval ≠ s.sourceInterval := by decide
  exact hall spec h

theorem sameCandles_step {db₀ : DB} (h₀ : OneSeries spec (db₀.tables "derivative_klines"))
    (hpart : db₀.Partitioned "derivative_klines" "open_time") (hs : SameCandles db₀ s.db)
    (hstep : Step spec s l t) : SameCandles db₀ t.db := by
  unfold Step advance at hstep
  split at hstep
  · rename_i hcond
    rw [Option.some.injEq] at hstep
    rw [← hstep]
    dsimp only
    have hrun : SameCandles s.db (runPlanItem l.faults l.opts l.item s.db).2 := by
      refine runPlanItem_rel (R := SameCandles) l.faults (fun _ _ h => .of_sameData h.sameData)
        l.opts l.item s.db fun u hu => ?_
      have hu' : SameCandles db₀ u.db := hs.trans (.of_sameData hu.sameData)
      exact cleanup_of_rolls hcond.1 h₀ hpart hu'
    exact hs.trans hrun
  · cases hstep

theorem rolled_of_run {db₀ : DB} {ls : List Cleanup} (hspec : spec ∈ klineRollups)
    (h₀ : OneSeries spec (db₀.tables "derivative_klines"))
    (hpart : db₀.Partitioned "derivative_klines" "open_time")
    (hrun : Run (Step spec) ⟨db₀, none⟩ ls s) :
    UpToDate spec db₀ s ∧
      s.db.tables "derivative_klines" = db₀.tables "derivative_klines" := by
  have hsame : SameCandles db₀ s.db :=
    hrun.inv (I := fun s => SameCandles db₀ s.db)
      (fun _ _ _ hs hstep => sameCandles_step h₀ hpart hs hstep) (Std.Refl.refl db₀)
  refine ⟨fun r hr htarget => ?_, hsame⟩
  rw [hsame] at hr
  exact absurd (htarget.symm.trans (h₀.source r hr)) (target_ne_source hspec)

end Progress

/-! ## Two candles of one bucket -/

def oneToFive : RollupSpec := ⟨"1m", "5m", 5 * 60⟩

/-- The one-minute candle of minute `m` of January 10, 2026. -/
def minuteRow (m : ℕ) (volume : ℚ) : Row where
  id := m + 1
  partition := none
  time := monthStart 2026 1 + 9 * day + m * minute
  expiresAt := none
  interval := "1m"
  candle :=
    ⟨1, "binance", "futures", "BTCUSDT", 0, 10, 12, 9, 11, some volume, none, none, none, none, true⟩

/-- The first two minutes of a bucket of five. -/
def twoMinutes : DB where
  tables := fun _ => ⟨[minuteRow 0 1, minuteRow 1 2], by decide⟩
  partitions := fun _ => []
  route := fun _ => none
  cleanupRuns := Table.empty
  rollupRuns := Table.empty

/-- A run of the seeded policy whose cutoff is minute `m` of that day. -/
def runAt (m : ℕ) : Cleanup :=
  ⟨noFaults, ⟨0, false⟩, seededPolicy, monthStart 2026 1 + 9 * day + m * minute, false, true⟩

namespace Progress

/-- A cutoff inside the bucket, and one at its end. -/
theorem rolled_of_run_twoMinutes : ∃ s,
    Run (Step oneToFive) ⟨twoMinutes, none⟩ [runAt 1, runAt 5] s ∧
      UpToDate oneToFive twoMinutes s ∧
      s.db.tables "derivative_klines" = twoMinutes.tables "derivative_klines" := by
  obtain ⟨s, hs, -⟩ := Option.map_eq_some_iff.1 (show ([runAt 1, runAt 5].foldlM
    (advance oneToFive) ⟨twoMinutes, none⟩).map (·.latest) =
      some (some (runAt 5).item.cutoffTime) by decide +kernel)
  have hrun := Run.of_foldlM hs
  exact ⟨s, hrun, rolled_of_run (by decide) ⟨by decide, by decide, by decide⟩ (by decide) hrun⟩

end Progress

end Aggregator.Retention
