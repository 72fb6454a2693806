/-
  The conflict keys of the rollup statement.

  The rollup groups the source candles by symbol, exchange, market type, source
  symbol and bucket, and inserts one candle for each group; the unique index of
  `derivative_klines` does not have the market type and the source symbol.

  * `grouped_nodup_iff`: the groups have different conflict keys exactly when the
    source candles of a symbol, exchange and bucket agree on both;
  * `renamed_symbol_rejected`: they do not when a source symbol is renamed inside
    a bucket, and the statement is rejected.
-/
import Aggregator.Retention.Frame
import Mathlib.Data.List.Dedup

namespace Aggregator.Retention

open Aggregator.Go

/-- No two rows agree on the columns of the unique index. -/
def UniqueIndex (t : Table Row.key) : Prop := (t.rows.map Row.conflictKey).Nodup

/-- The source candles of one symbol, exchange and bucket have one market type
    and one source symbol. -/
def RollupSpec.OneSource (spec : RollupSpec) (cutoff : ℤ) (t : Table Row.key) : Prop :=
  ∀ r ∈ spec.eligible cutoff t, ∀ s ∈ spec.eligible cutoff t,
    r.candle.symbolID = s.candle.symbolID → r.candle.exchange = s.candle.exchange →
    bucketTime spec.bucketSeconds r.time = bucketTime spec.bucketSeconds s.time →
      r.candle.marketType = s.candle.marketType ∧ r.candle.sourceSymbol = s.candle.sourceSymbol

section
variable {spec : RollupSpec} {cutoff : ℤ} {t : Table Row.key}

/-- The groups are those of the source candles, each once. -/
theorem RollupSpec.map_grouped {α : Type} (f : Group → α) :
    (spec.grouped cutoff t).map (f ·.1) = ((spec.eligible cutoff t).map spec.group).dedup.map f := by
  rw [grouped, List.map_map]
  rfl

theorem RollupSpec.conflictKey_group_eq {r s : Row} :
    spec.conflictKey (spec.group r) = spec.conflictKey (spec.group s) ↔
      r.candle.symbolID = s.candle.symbolID ∧ r.candle.exchange = s.candle.exchange ∧
        bucketTime spec.bucketSeconds r.time = bucketTime spec.bucketSeconds s.time := by
  simp [conflictKey, group]

theorem RollupSpec.group_eq {r s : Row} :
    spec.group r = spec.group s ↔
      r.candle.symbolID = s.candle.symbolID ∧ r.candle.exchange = s.candle.exchange ∧
        r.candle.marketType = s.candle.marketType ∧
        r.candle.sourceSymbol = s.candle.sourceSymbol ∧
        bucketTime spec.bucketSeconds r.time = bucketTime spec.bucketSeconds s.time := by
  simp [group]

/-- The groups have different conflict keys iff no two candles of one key are in
    different groups. -/
theorem RollupSpec.nodup_iff_oneSource :
    ((spec.grouped cutoff t).map (spec.conflictKey ·.1)).Nodup ↔ spec.OneSource cutoff t := by
  rw [map_grouped, List.nodup_map_iff_inj_on (List.nodup_dedup _)]
  constructor
  · intro h r hr s hs hid hex hbucket
    have hmem : ∀ x ∈ spec.eligible cutoff t,
        spec.group x ∈ ((spec.eligible cutoff t).map spec.group).dedup :=
      fun x hx => List.mem_dedup.2 (List.mem_map_of_mem hx)
    have heq := h _ (hmem r hr) _ (hmem s hs) (conflictKey_group_eq.2 ⟨hid, hex, hbucket⟩)
    obtain ⟨-, -, hmarket, hsymbol, -⟩ := group_eq.1 heq
    exact ⟨hmarket, hsymbol⟩
  · intro h g hg g' hg' hk
    obtain ⟨r, hr, rfl⟩ := List.mem_map.1 (List.mem_dedup.1 hg)
    obtain ⟨s, hs, rfl⟩ := List.mem_map.1 (List.mem_dedup.1 hg')
    obtain ⟨hid, hex, hbucket⟩ := conflictKey_group_eq.1 hk
    obtain ⟨hmarket, hsymbol⟩ := h r hr s hs hid hex hbucket
    exact group_eq.2 ⟨hid, hex, hmarket, hsymbol, hbucket⟩

end

theorem grouped_nodup_iff (spec : RollupSpec) (cutoff : ℤ) (db : DB) :
    (((spec.grouped cutoff (db.tables "derivative_klines")).map (spec.conflictKey ·.1)).Nodup ↔
      spec.OneSource cutoff (db.tables "derivative_klines")) ∧
    ((∃ n db', executeKlineRollup spec cutoff db = .ok (n, db')) ↔
      spec.OneSource cutoff (db.tables "derivative_klines")) := by
  refine ⟨RollupSpec.nodup_iff_oneSource, ?_⟩
  rw [← RollupSpec.nodup_iff_oneSource, executeKlineRollup]
  by_cases hacc : spec.accepts cutoff (db.tables "derivative_klines")
  · rw [if_pos hacc]
    exact iff_of_true ⟨_, _, rfl⟩ (of_decide_eq_true hacc)
  · rw [if_neg hacc]
    exact iff_of_false (by rintro ⟨n, db', h⟩; cases h) fun h => hacc (decide_eq_true h)

/-! ## A renamed source symbol -/

/-- A one-minute candle of the first bucket of 2026. -/
def renamedRow (minutes : ℤ) (sourceSymbol : String) : Row where
  id := minutes
  partition := none
  time := monthStart 2026 1 + minutes * minute
  expiresAt := none
  interval := "1m"
  candle :=
    ⟨1, "binance", "", sourceSymbol, 0, 10, 12, 9, 11, some 5, none, none, none, none, true⟩

/-- The source symbol changes between the second and the third minute. -/
def renamedDB : DB where
  tables := fun _ => ⟨[renamedRow 1 "XBTUSDT", renamedRow 2 "BTCUSDT"], by decide⟩
  partitions := fun _ => []
  route := fun _ => none
  cleanupRuns := Table.empty
  rollupRuns := Table.empty

theorem renamed_symbol_rejected :
    ⟨"1m", "5m", 5 * 60⟩ ∈ klineRollups ∧ UniqueIndex (renamedDB.tables "derivative_klines") ∧
      ¬((RollupSpec.grouped ⟨"1m", "5m", 5 * 60⟩ (monthStart 2026 1 + day)
        (renamedDB.tables "derivative_klines")).map
          (RollupSpec.conflictKey ⟨"1m", "5m", 5 * 60⟩ ·.1)).Nodup ∧
      (executeKlineRollup ⟨"1m", "5m", 5 * 60⟩ (monthStart 2026 1 + day) renamedDB).isOk = false := by
  refine ⟨by decide, by unfold UniqueIndex; decide +kernel, ?_, by decide +kernel⟩
  decide +kernel

end Aggregator.Retention
