/-
  The sums over a window of time that the analytics of a symbol start from
  (`internal/repositories/aggregate_analytics.go`: `windowTakerDelta`,
  `windowLiquidationSum`), and `UpsertTakerFlows` of `advanced.go`.

  The model keeps the column `raw_data`, which the queries read a status from,
  beside a table: as a function of the key of a row.

  * `rows_upsertTakerFlows`, `rows_upsertLiquidationAggregates`: rows with new keys
    are appended;
  * `windowTakerDelta_append`, `windowLiquidationSum_append`: the sums add up all
    rows of the symbol in the window, whatever their period.
-/
import Aggregator.Repositories.Cvd
import Aggregator.Repositories.Liquidation
import Aggregator.Repositories.MarketSnapshot

namespace Aggregator.Repositories

open Aggregator.Go Aggregator.Normalizers

/-! ## Taker flows -/

/-- The columns of the unique index of `taker_flow_snapshots`. -/
structure FlowKey where
  symbolID : ℤ
  exchange : String
  period : String
  snapshotTime : ℤ
deriving DecidableEq, Repr

def flowKey (r : NormalizedTakerFlow) : FlowKey := ⟨r.symbolID, r.exchange, r.period, r.snapshotTime⟩

abbrev TakerFlowTable := Table flowKey

/-- `DO UPDATE SET` every column outside the index. -/
def overFlow (new old : NormalizedTakerFlow) : NormalizedTakerFlow :=
  { new with
    symbolID := old.symbolID
    exchange := old.exchange
    period := old.period
    snapshotTime := old.snapshotTime }

theorem overFlow_key (new old : NormalizedTakerFlow) : flowKey (overFlow new old) = flowKey old := rfl

/-- One flow, with the `CHECK` of the table. -/
def upsertTakerFlow (acc : ℕ × TakerFlowTable) (item : NormalizedTakerFlow) :
    Except String (ℕ × TakerFlowTable) := do
  validateTakerFlow item
  let item := fillTakerFlowDeltas item
  if item.exchange ≠ toLower item.exchange then
    .error "upsert taker flow: pq: new row violates check constraint"
  else
    return (acc.1 + 1, acc.2.upsert item (overFlow item) (overFlow_key item))

/-- `UpsertTakerFlows`: one transaction for all items. -/
def upsertTakerFlows (items : List NormalizedTakerFlow) (t : TakerFlowTable) :
    Except String (ℕ × TakerFlowTable) :=
  items.foldlM upsertTakerFlow (0, t)

/-! ## The queries -/

/-- `raw_data->>key`, if it is text; of another value only whether it is there
    matters. -/
def member (key : String) : Json → Option Json
  | .obj fields => ((fields.find? fun f => f.1 = key).map Prod.snd).filter fun
    | .null => false
    | _ => true
  | _ => none

/-- `lower(COALESCE(raw_data->>'quality_status', …, 'ok')) IN ('degraded', …)`. -/
def leftOut (lower : String → String) (raw : Json) : Bool :=
  match ["quality_status", "status", "normalized_status"].findSome? (member · raw) with
  | some (.str status) => lower status ∈ ["degraded", "failed", "invalid", "unhealthy"]
  | _ => false

/-- The status in the raw data is one of those the queries leave out; `lower` is
    that of a collation that lowers each character as Unicode has it. -/
def statusLeftOut (raw : Json) : Bool := leftOut toLower raw

/-- A row of the symbol in the window `(start, end]` that is not left out. -/
def countsIn (raw : Json) (symbolID start stop rowSymbol time : ℤ) : Bool :=
  rowSymbol = symbolID && start < time && time ≤ stop && !statusLeftOut raw

/-- The `CASE` of `windowTakerDelta`. -/
def takerDelta (row : NormalizedTakerFlow) : ℚ :=
  match row.buySellDeltaQuote, row.buySellDelta, row.takerBuyQuoteVolume,
    row.takerSellQuoteVolume, row.takerBuyVolume, row.takerSellVolume with
  | some delta, _, _, _, _, _ => delta
  | none, some delta, _, _, _, _ => delta
  | none, none, some buy, some sell, _, _ => buy - sell
  | none, none, _, _, some buy, some sell => buy - sell
  | _, _, _, _, _, _ => 0

def windowTakerDelta (raw : FlowKey → Json) (rows : List NormalizedTakerFlow)
    (symbolID start stop : ℤ) : ℚ :=
  ((rows.filter fun r => countsIn (raw (flowKey r)) symbolID start stop r.symbolID r.snapshotTime).map
    takerDelta).sum

def windowLiquidationSum (raw : BucketKey → Json) (rows : List NormalizedLiquidationAggregate)
    (symbolID start stop : ℤ) : ℚ :=
  ((rows.filter fun r => countsIn (raw (bucketKey r)) symbolID start stop r.symbolID r.bucketTime).map
    fun r => if r.totalLiquidationUSD ≥ 0 then r.totalLiquidationUSD else 0).sum

theorem windowTakerDelta_append (raw : FlowKey → Json) (rows rows' : List NormalizedTakerFlow)
    (symbolID start stop : ℤ) :
    windowTakerDelta raw (rows ++ rows') symbolID start stop =
      windowTakerDelta raw rows symbolID start stop +
        windowTakerDelta raw rows' symbolID start stop := by
  simp only [windowTakerDelta, List.filter_append, List.map_append, List.sum_append]

theorem windowLiquidationSum_append (raw : BucketKey → Json)
    (rows rows' : List NormalizedLiquidationAggregate) (symbolID start stop : ℤ) :
    windowLiquidationSum raw (rows ++ rows') symbolID start stop =
      windowLiquidationSum raw rows symbolID start stop +
        windowLiquidationSum raw rows' symbolID start stop := by
  simp only [windowLiquidationSum, List.filter_append, List.map_append, List.sum_append]

/-! ## New rows -/

section
variable {σ ι ρ κ : Type} [DecidableEq κ] {key : ρ → κ} {f : σ → ι → Except String σ}

/-- A loop of statements, each of which stores a row. -/
theorem rows_foldlM (table : σ → Table key) (row : ι → ρ)
    (hf : ∀ s item s', f s item = .ok s' → ∃ m hm, table s' = (table s).upsert (row item) m hm)
    {items : List ι} {s s' : σ} (hn : (items.map fun item => key (row item)).Nodup)
    (hfresh : ∀ item ∈ items, (table s).find (key (row item)) = none)
    (h : items.foldlM f s = .ok s') : (table s').rows = (table s).rows ++ items.map row := by
  induction items generalizing s with
  | nil =>
    obtain rfl := Except.ok.inj h
    exact (List.append_nil _).symm
  | cons item items ih =>
    rw [List.foldlM_cons] at h
    obtain ⟨s₁, h₁, h⟩ := bind_eq_ok h
    obtain ⟨m, hm, htable⟩ := hf s item s₁ h₁
    rw [List.map_cons, List.nodup_cons] at hn
    have hrow : (table s₁).rows = (table s).rows ++ [row item] := by
      rw [htable, Table.rows_upsert_of_none (hfresh item List.mem_cons_self)]
    rw [ih hn.2 (fun i hi => ?_) h, hrow, List.append_assoc]
    · rfl
    · -- the keys of the rows that follow are still new
      rw [htable, Table.find_upsert, if_neg, hfresh i (List.mem_cons_of_mem _ hi)]
      intro hk
      rw [hk] at hn
      exact hn.1 (List.mem_map.2 ⟨i, hi, rfl⟩)

end

theorem rows_upsertTakerFlows {items : List NormalizedTakerFlow} {t : TakerFlowTable}
    {r : ℕ × TakerFlowTable} (hn : (items.map flowKey).Nodup)
    (hfresh : ∀ item ∈ items, t.find (flowKey item) = none)
    (h : upsertTakerFlows items t = .ok r) :
    r.2.rows = t.rows ++ items.map fillTakerFlowDeltas := by
  refine rows_foldlM Prod.snd fillTakerFlowDeltas (fun s item s' hs => ?_) hn hfresh h
  obtain ⟨_, -, hs⟩ := bind_eq_ok hs
  dsimp only at hs
  split at hs
  · cases hs
  · obtain rfl := Except.ok.inj hs
    exact ⟨_, _, rfl⟩

theorem rows_upsertLiquidationAggregates {items : List NormalizedLiquidationAggregate}
    {db : LiquidationDB} {r : ℕ × LiquidationDB} (hn : (items.map bucketKey).Nodup)
    (hfresh : ∀ item ∈ items, db.aggregates.find (bucketKey item) = none)
    (h : upsertLiquidationAggregates items db = .ok r) :
    r.2.aggregates.rows = db.aggregates.rows ++ items.map fillLiquidationUSD := by
  refine rows_foldlM (fun s : ℕ × LiquidationDB => s.2.aggregates) fillLiquidationUSD
    (fun s item s' hs => ?_) hn hfresh h
  obtain ⟨_, -, hs⟩ := bind_eq_ok hs
  dsimp only at hs
  split at hs
  · cases hs
  · obtain rfl := Except.ok.inj hs
    exact ⟨_, _, rfl⟩

end Aggregator.Repositories
