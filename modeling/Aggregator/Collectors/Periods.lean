/-
  Two series of one symbol and exchange, with different periods.

  A policy may ask for the taker flows of a symbol by the minute and another for
  those of five minutes, and liquidations are aggregated by both periods.  The rows
  of the two series show the same trades and liquidations.

  * `windowTakerDelta_flowsOf`, `windowLiquidationSum_derived`: what the rows of a
    series add to the sums over a window;
  * `window_unchanged_iff`: once both series are stored, a window counts a trade or a
    liquidation for each series that shows it there; the sums stay those of the
    series by the minute only if the trades that the other shows cancel and its
    liquidations are worth nothing;
  * `five_minutes_count_twice`: one trade and one liquidation that count twice.
-/
import Aggregator.Collectors.Writer
import Aggregator.Repositories.Windows
import Mathlib.Algebra.Order.BigOperators.Group.List

namespace Aggregator.Collectors.Core

open Aggregator.Go Aggregator.Normalizers Aggregator.Scheduler Aggregator.Repositories

/-! ## The flows of some trades -/

/-- A trade, and whether the taker bought. -/
structure Trade where
  time : ℤ
  bought : Bool
  volume : ℚ
  quoteVolume : ℚ
deriving DecidableEq, Repr

/-- The volume of a trade in quote currency, if the exchange reports it, or else in
    units. -/
def Trade.size (quoted : Bool) (t : Trade) : ℚ := if quoted then t.quoteVolume else t.volume

/-- What a trade adds to the taker delta. -/
def Trade.delta (quoted : Bool) (t : Trade) : ℚ :=
  if t.bought then t.size quoted else -t.size quoted

/-- The volume on one side of the trades. -/
def sideVolume (bought quoted : Bool) (trades : List Trade) : ℚ :=
  ((trades.filter fun t => t.bought = bought).map (Trade.size quoted)).sum

/-- The flow an exchange reports for the trades of a bucket. -/
def flowAt (s : Series) (symbol : String) (quoted : Bool) (trades : List Trade) (b : ℤ) :
    NormalizedTakerFlow where
  symbolID := s.symbolID
  exchange := s.exchange
  sourceSymbol := symbol
  period := s.period
  snapshotTime := b
  takerBuyVolume := some (sideVolume true false trades)
  takerSellVolume := some (sideVolume false false trades)
  takerBuyQuoteVolume := if quoted then some (sideVolume true true trades) else none
  takerSellQuoteVolume := if quoted then some (sideVolume false true trades) else none
  buySellDelta := none
  buySellDeltaQuote := none
  buySellRatio := none

/-- The series of flows of some trades; `bucket` is the time of the flow that shows
    a trade. -/
def flowsOf (s : Series) (symbol : String) (quoted : Bool) (bucket : ℤ → ℤ)
    (trades : List Trade) : List NormalizedTakerFlow :=
  (trades.map fun t => bucket t.time).dedup.map fun b =>
    flowAt s symbol quoted (trades.filter fun t => bucket t.time = b) b

theorem sideVolume_sub (quoted : Bool) (trades : List Trade) :
    sideVolume true quoted trades - sideVolume false quoted trades =
      (trades.map (Trade.delta quoted)).sum := by
  induction trades with
  | nil => simp [sideVolume]
  | cons t trades ih =>
    rw [List.map_cons, List.sum_cons, ← ih]
    cases ht : t.bought <;> simp [sideVolume, Trade.delta, ht] <;> ring

theorem takerDelta_flowAt (s : Series) (symbol : String) (quoted : Bool) (trades : List Trade)
    (b : ℤ) :
    takerDelta (fillTakerFlowDeltas (flowAt s symbol quoted trades b)) =
      (trades.map (Trade.delta quoted)).sum := by
  cases quoted with
  | false => exact sideVolume_sub false trades
  | true => exact sideVolume_sub true trades

/-! ## A second series -/

section
variable {s : Series} {symbol : String} {quoted : Bool} {bucket : ℤ → ℤ} {trades : List Trade}
  {job : Job} {events : List NormalizedLiquidationEvent} {symbolID start stop : ℤ}

/-- The key of a flow of the series. -/
def flowRowKey (s : Series) (b : ℤ) : FlowKey := ⟨s.symbolID, s.exchange, s.period, b⟩

theorem flowKey_flowsOf :
    (flowsOf s symbol quoted bucket trades).map flowKey =
      (trades.map fun t => bucket t.time).dedup.map (flowRowKey s) := by
  rw [flowsOf, List.map_map]
  rfl

theorem nodup_flowsOf : ((flowsOf s symbol quoted bucket trades).map flowKey).Nodup := by
  rw [flowKey_flowsOf]
  refine List.Nodup.map (fun b b' hb => ?_) (List.nodup_dedup _)
  exact congrArg FlowKey.snapshotTime hb

/-- The trades that the series shows in a window. -/
def shownTrades (raw : FlowKey → Json) (symbolID start stop : ℤ) (s : Series) (bucket : ℤ → ℤ)
    (trades : List Trade) : List Trade :=
  trades.filter fun t => countsIn (raw (flowRowKey s (bucket t.time))) symbolID start stop
    s.symbolID (bucket t.time)

/-- What the flows of some trades add to a window. -/
theorem windowTakerDelta_flowsOf (raw : FlowKey → Json) :
    windowTakerDelta raw ((flowsOf s symbol quoted bucket trades).map fillTakerFlowDeltas)
        symbolID start stop =
      ((shownTrades raw symbolID start stop s bucket trades).map (Trade.delta quoted)).sum := by
  unfold shownTrades
  rw [← sum_buckets (List.nodup_dedup (trades.map fun t => bucket t.time))
    (fun t ht => List.mem_dedup.2 (List.mem_map.2 ⟨t, ht, rfl⟩)) (Trade.delta quoted)
    fun b => countsIn (raw (flowRowKey s b)) symbolID start stop s.symbolID b]
  rw [windowTakerDelta, flowsOf, List.map_map, List.filter_map, List.map_map]
  refine congrArg List.sum (List.map_congr_left fun b _ => ?_)
  exact takerDelta_flowAt s symbol quoted _ b

theorem total_bucketRow (period : String) (b : ℤ) (e : NormalizedLiquidationEvent)
    (es : List NormalizedLiquidationEvent) :
    (bucketRow period b e es).totalLiquidationUSD = (es.map eventUSD).sum := by
  induction es using List.reverseRecOn with
  | nil => rfl
  | append_singleton es x ih =>
    rw [List.map_append, List.sum_append, ← ih, bucketRow, List.foldl_append]
    simp only [List.foldl_cons, List.foldl_nil, addEvent, List.map_cons, List.map_nil,
      List.sum_cons, List.sum_nil, add_zero]
    split <;> rfl

theorem fill_derived (h : EventsOf s events) :
    (deriveLiquidationAggregates job events).map fillLiquidationUSD =
      deriveLiquidationAggregates job events := by
  conv_rhs => rw [← List.map_id (deriveLiquidationAggregates job events)]
  exact List.map_congr_left fun a ha => (derived_balanced h.valid ha).fill

/-- A derived row shows the events of its bucket. -/
theorem total_derived (h : EventsOf s events) (hjob : liquidationPeriod job = s.period)
    {a : NormalizedLiquidationAggregate} (ha : a ∈ deriveLiquidationAggregates job events) :
    a.totalLiquidationUSD ≥ 0 ∧ a.totalLiquidationUSD =
      ((events.filter fun e => bucketOf s.period e = a.bucketTime).map eventUSD).sum := by
  obtain ⟨e, -, hrow⟩ := of_mem_derive (counted_of_valid h.valid) ha
  have htotal := congrArg NormalizedLiquidationAggregate.totalLiquidationUSD hrow
  rw [total_bucketRow, hjob] at htotal
  exact ⟨(derived_balanced h.valid ha).total_nonneg, htotal⟩

/-- The liquidations that the series shows in a window. -/
def shownEvents (raw : BucketKey → Json) (symbolID start stop : ℤ) (s : Series)
    (events : List NormalizedLiquidationEvent) : List NormalizedLiquidationEvent :=
  events.filter fun e => countsIn (raw (rowKey s (bucketOf s.period e))) symbolID start stop
    s.symbolID (bucketOf s.period e)

/-- What the aggregates of some events add to a window. -/
theorem windowLiquidationSum_derived (h : EventsOf s events)
    (hjob : liquidationPeriod job = s.period) (raw : BucketKey → Json) :
    windowLiquidationSum raw
        ((deriveLiquidationAggregates job events).map fillLiquidationUSD) symbolID start stop =
      ((shownEvents raw symbolID start stop s events).map eventUSD).sum := by
  unfold shownEvents
  have hn : ((deriveLiquidationAggregates job events).map fun a => a.bucketTime).Nodup :=
    Table.nodup _
  have hmem : ∀ e ∈ events, bucketOf s.period e ∈
      (deriveLiquidationAggregates job events).map fun a => a.bucketTime := by
    intro e he
    obtain ⟨a, ha, hb⟩ := mem_derive job (counted_of_valid h.valid) he
    exact List.mem_map.2 ⟨a, ha, by rw [hb, hjob]⟩
  rw [← sum_buckets hn hmem eventUSD
    fun b => countsIn (raw (rowKey s b)) symbolID start stop s.symbolID b]
  rw [windowLiquidationSum, fill_derived h, List.filter_map, List.map_map]
  -- the rows are selected by the same condition, and show the events of their buckets
  have hkeep : (deriveLiquidationAggregates job events).filter (fun r =>
      countsIn (raw (bucketKey r)) symbolID start stop r.symbolID r.bucketTime) =
      (deriveLiquidationAggregates job events).filter ((fun b =>
        countsIn (raw (rowKey s b)) symbolID start stop s.symbolID b) ∘ fun a => a.bucketTime) := by
    refine List.filter_congr fun a ha => ?_
    have hkey := h.bucketKey hjob ha
    have hid : a.symbolID = s.symbolID := congrArg BucketKey.symbolID hkey
    simp only [Function.comp, hkey, hid]
  rw [hkeep]
  refine congrArg List.sum (List.map_congr_left fun a ha => ?_)
  obtain ⟨hnonneg, htotal⟩ := total_derived h hjob (List.mem_of_mem_filter ha)
  rw [if_pos hnonneg, htotal]
  rfl

theorem rows_flowsOf {t : TakerFlowTable} {r : ℕ × TakerFlowTable}
    (hfresh : ∀ b, t.find (flowRowKey s b) = none)
    (h : upsertTakerFlows (flowsOf s symbol quoted bucket trades) t = .ok r) :
    r.2.rows = t.rows ++ (flowsOf s symbol quoted bucket trades).map fillTakerFlowDeltas := by
  refine rows_upsertTakerFlows nodup_flowsOf (fun f hf => ?_) h
  have hkey : flowKey f ∈ (flowsOf s symbol quoted bucket trades).map flowKey :=
    List.mem_map.2 ⟨f, hf, rfl⟩
  rw [flowKey_flowsOf] at hkey
  obtain ⟨b, -, hb⟩ := List.mem_map.1 hkey
  rw [← hb]
  exact hfresh b

theorem rows_derived {db : LiquidationDB} {r : ℕ × LiquidationDB} (hevents : EventsOf s events)
    (hjob : liquidationPeriod job = s.period) (hfresh : ∀ b, db.aggregates.find (rowKey s b) = none)
    (h : upsertLiquidationAggregates (deriveLiquidationAggregates job events) db = .ok r) :
    r.2.aggregates.rows = db.aggregates.rows ++
      (deriveLiquidationAggregates job events).map fillLiquidationUSD :=
  rows_upsertLiquidationAggregates (hevents.derived_nodup hjob)
    (fun a ha => by rw [hevents.bucketKey hjob ha]; exact hfresh _) h

end

/-! ## Both series -/

/-- The series of the same symbol and exchange with a period. -/
def withPeriod (s : Series) (period : String) : Series := { s with period := period }

/-- The flows of some trades, stored by the minute in `t` and then by five minutes in
    `t'`; `bucket` is the time of the flow of a period that shows a trade. -/
structure FlowsStored (s : Series) (symbol : String) (quoted : Bool) (bucket : String → ℤ → ℤ)
    (trades : List Trade) (t₀ t t' : TakerFlowTable) : Prop where
  fresh : ∀ period ∈ ["1m", "5m"], ∀ b, t₀.find (flowRowKey (withPeriod s period) b) = none
  minutes : ∃ n, upsertTakerFlows (flowsOf (withPeriod s "1m") symbol quoted (bucket "1m") trades)
    t₀ = .ok (n, t)
  fives : ∃ n, upsertTakerFlows (flowsOf (withPeriod s "5m") symbol quoted (bucket "5m") trades)
    t = .ok (n, t')

/-- The aggregates of some liquidations, stored by the minute in `db` and then by five
    minutes in `db'`. -/
structure LiquidationsStored (s : Series) (job : String → Job)
    (events : List NormalizedLiquidationEvent) (db₀ db db' : LiquidationDB) : Prop where
  sourced : ∀ period, EventsOf (withPeriod s period) events
  period : ∀ period ∈ ["1m", "5m"], liquidationPeriod (job period) = period
  fresh : ∀ period ∈ ["1m", "5m"], ∀ b,
    db₀.aggregates.find (rowKey (withPeriod s period) b) = none
  minutes : ∃ n, upsertLiquidationAggregates (deriveLiquidationAggregates (job "1m") events) db₀ =
    .ok (n, db)
  fives : ∃ n, upsertLiquidationAggregates (deriveLiquidationAggregates (job "5m") events) db =
    .ok (n, db')

section
variable {s : Series} {symbol : String} {quoted : Bool} {bucket : String → ℤ → ℤ}
  {trades : List Trade} {job : String → Job} {events : List NormalizedLiquidationEvent}
  {t₀ t t' : TakerFlowTable} {db₀ db db' : LiquidationDB}

theorem FlowsStored.rows (h : FlowsStored s symbol quoted bucket trades t₀ t t') :
    t.rows = t₀.rows ++ (flowsOf (withPeriod s "1m") symbol quoted (bucket "1m") trades).map
        fillTakerFlowDeltas ∧
      t'.rows = t.rows ++ (flowsOf (withPeriod s "5m") symbol quoted (bucket "5m") trades).map
        fillTakerFlowDeltas := by
  obtain ⟨n, hminutes⟩ := h.minutes
  obtain ⟨m, hfives⟩ := h.fives
  have hrows := rows_flowsOf (h.fresh "1m" (by simp)) hminutes
  refine ⟨hrows, rows_flowsOf (fun b => Table.find_eq_none.2 fun r hr hkey => ?_) hfives⟩
  -- a row by five minutes is none of the rows by the minute
  rw [← Table.mem_rows, hrows, List.mem_append] at hr
  rcases hr with hr | hr
  · exact Table.find_eq_none.1 (h.fresh "5m" (by simp) b) r hr hkey
  · obtain ⟨f, hf, rfl⟩ := List.mem_map.1 hr
    obtain ⟨b', -, rfl⟩ := List.mem_map.1 hf
    have hperiod : "1m" = "5m" := congrArg FlowKey.period hkey
    exact absurd hperiod (by decide)

theorem LiquidationsStored.rows (h : LiquidationsStored s job events db₀ db db') :
    db.aggregates.rows = db₀.aggregates.rows ++
        (deriveLiquidationAggregates (job "1m") events).map fillLiquidationUSD ∧
      db'.aggregates.rows = db.aggregates.rows ++
        (deriveLiquidationAggregates (job "5m") events).map fillLiquidationUSD := by
  obtain ⟨n, hminutes⟩ := h.minutes
  obtain ⟨m, hfives⟩ := h.fives
  have hrows := rows_derived (h.sourced "1m") (h.period "1m" (by simp)) (h.fresh "1m" (by simp))
    hminutes
  refine ⟨hrows, rows_derived (h.sourced "5m") (h.period "5m" (by simp))
    (fun b => Table.find_eq_none.2 fun r hr hkey => ?_) hfives⟩
  rw [← Table.mem_rows, hrows, List.mem_append] at hr
  rcases hr with hr | hr
  · exact Table.find_eq_none.1 (h.fresh "5m" (by simp) b) r hr hkey
  · rw [fill_derived (h.sourced "1m")] at hr
    have hkey' := (h.sourced "1m").bucketKey (h.period "1m" (by simp)) hr
    have hperiod : "1m" = "5m" := congrArg BucketKey.period (hkey'.symm.trans hkey)
    exact absurd hperiod (by decide)

/-- The trades cancel if the takers bought as much as they sold. -/
theorem sum_delta_eq_zero {trades : List Trade} :
    (trades.map (Trade.delta quoted)).sum = 0 ↔
      sideVolume true quoted trades = sideVolume false quoted trades := by
  rw [← sideVolume_sub, sub_eq_zero]

/-- Liquidations are worth nothing together if each is. -/
theorem sum_eventUSD_eq_zero {es : List NormalizedLiquidationEvent}
    (h : ∀ e ∈ es, validateLiquidationEvent e = .ok ()) :
    (es.map eventUSD).sum = 0 ↔ ∀ e ∈ es, eventUSD e = 0 := by
  have hnonneg : ∀ x ∈ es.map eventUSD, 0 ≤ x := by
    intro x hx
    obtain ⟨e, he, rfl⟩ := List.mem_map.1 hx
    exact liquidationUSD_nonneg (h e he)
  rw [← List.forall_mem_map (f := eventUSD) (P := fun x => x = 0)]
  exact ⟨List.all_zero_of_le_zero_le_of_sum_eq_zero hnonneg, List.sum_eq_zero⟩

/-- **A second series**: the sums over a window count what each series shows there, and
    stay what the series by the minute shows exactly if, among what the series by five
    minutes shows, as much was bought as sold and every liquidation is worth nothing. -/
theorem window_unchanged_iff (symbolID start stop : ℤ) (flowRaw : FlowKey → Json)
    (bucketRaw : BucketKey → Json) (hflows : FlowsStored s symbol quoted bucket trades t₀ t t')
    (hliquidations : LiquidationsStored s job events db₀ db db') :
    let shown (period : String) :=
      shownTrades flowRaw symbolID start stop (withPeriod s period) (bucket period) trades
    let liquidated (period : String) :=
      shownEvents bucketRaw symbolID start stop (withPeriod s period) events
    windowTakerDelta flowRaw t'.rows symbolID start stop =
        windowTakerDelta flowRaw t₀.rows symbolID start stop +
          ((shown "1m").map (Trade.delta quoted)).sum +
          ((shown "5m").map (Trade.delta quoted)).sum ∧
      windowLiquidationSum bucketRaw db'.aggregates.rows symbolID start stop =
        windowLiquidationSum bucketRaw db₀.aggregates.rows symbolID start stop +
          ((liquidated "1m").map eventUSD).sum + ((liquidated "5m").map eventUSD).sum ∧
      ((windowTakerDelta flowRaw t'.rows symbolID start stop =
          windowTakerDelta flowRaw t.rows symbolID start stop ∧
        windowLiquidationSum bucketRaw db'.aggregates.rows symbolID start stop =
          windowLiquidationSum bucketRaw db.aggregates.rows symbolID start stop) ↔
      sideVolume true quoted (shown "5m") = sideVolume false quoted (shown "5m") ∧
        ∀ e ∈ liquidated "5m", eventUSD e = 0) := by
  intro shown liquidated
  obtain ⟨hrows, hrows'⟩ := hflows.rows
  obtain ⟨hbuckets, hbuckets'⟩ := hliquidations.rows
  have hvalid : ∀ e ∈ liquidated "5m", validateLiquidationEvent e = .ok () :=
    fun e he => (hliquidations.sourced "5m").valid e (List.mem_of_mem_filter he)
  have hperiod : ∀ period ∈ ["1m", "5m"], liquidationPeriod (job period) =
      (withPeriod s period).period := hliquidations.period
  rw [hrows', hbuckets', windowTakerDelta_append, windowLiquidationSum_append,
    windowTakerDelta_flowsOf,
    windowLiquidationSum_derived (hliquidations.sourced "5m") (hperiod "5m" (by simp)),
    add_eq_left, add_eq_left, hrows, hbuckets, windowTakerDelta_append,
    windowLiquidationSum_append, windowTakerDelta_flowsOf,
    windowLiquidationSum_derived (hliquidations.sourced "1m") (hperiod "1m" (by simp))]
  exact ⟨rfl, rfl, and_congr sum_delta_eq_zero (sum_eventUSD_eq_zero hvalid)⟩

end

section Examples

def ofPeriod (period : String) : Series := ⟨1, "binance", period⟩

/-- The flows of the trades by the minute, or by five minutes. -/
def flowsBy (period : String) (trades : List Trade) : List NormalizedTakerFlow :=
  flowsOf (ofPeriod period) "BTCUSDT" true (truncate · (liquidationBucketSize period)) trades

def aggregateJob (period : String) : Job :=
  .planned 7 "binance" "liquidation_aggregate" "top100" 1 "BTCUSDT" period 100 3 .null 0

def liquidated (time : ℤ) (usd : ℚ) : NormalizedLiquidationEvent :=
  ⟨⟨1, "binance", "BTCUSDT"⟩, "a", time, "sell", none, none, none, some usd, "", ""⟩

/-- Two trades and a liquidation of the fifth to the tenth minute, and a window that
    begins after the fifth: it shows them by the minute only. -/
theorem window_unchanged_iff_minutes :
    let trades : List Trade := [⟨7 * minute, true, 1, 100⟩, ⟨8 * minute, false, 1, 40⟩]
    let events := [liquidated (7 * minute) 50]
    ∃ t t' db db', FlowsStored (ofPeriod "") "BTCUSDT" true
        (fun period => (truncate · (liquidationBucketSize period))) trades Table.empty t t' ∧
      LiquidationsStored (ofPeriod "") aggregateJob events ⟨Table.empty, Table.empty⟩ db db' ∧
      windowTakerDelta (fun _ => .obj []) t.rows 1 (5 * minute) (9 * minute) = 60 ∧
      windowTakerDelta (fun _ => .obj []) t'.rows 1 (5 * minute) (9 * minute) =
        windowTakerDelta (fun _ => .obj []) t.rows 1 (5 * minute) (9 * minute) ∧
      windowLiquidationSum (fun _ => .obj []) db'.aggregates.rows 1 (5 * minute) (9 * minute) =
        windowLiquidationSum (fun _ => .obj []) db.aggregates.rows 1 (5 * minute) (9 * minute) := by
  intro trades events
  obtain ⟨⟨n, t⟩, ht, hdelta⟩ := Option.map_eq_some_iff.1 (show
    (upsertTakerFlows (flowsBy "1m" trades) Table.empty).toOption.map (fun r =>
      (windowTakerDelta (fun _ => .obj []) r.2.rows 1 (5 * minute) (9 * minute),
        (upsertTakerFlows (flowsBy "5m" trades) r.2).toOption.isSome)) = some (60, true) by decide +kernel)
  obtain ⟨⟨m, db⟩, hdb, hok⟩ := Option.map_eq_some_iff.1 (show
    (upsertLiquidationAggregates (deriveLiquidationAggregates (aggregateJob "1m") events)
      ⟨Table.empty, Table.empty⟩).toOption.map (fun r => (upsertLiquidationAggregates
        (deriveLiquidationAggregates (aggregateJob "5m") events) r.2).toOption.isSome) = some true by
    decide +kernel)
  rw [toOption_eq_some] at ht hdb
  obtain ⟨hdelta, hok'⟩ := Prod.mk.inj hdelta
  obtain ⟨⟨n', t'⟩, ht'⟩ := Option.isSome_iff_exists.1 hok'
  obtain ⟨⟨m', db'⟩, hdb'⟩ := Option.isSome_iff_exists.1 hok
  rw [toOption_eq_some] at ht' hdb'
  have hflows : FlowsStored (ofPeriod "") "BTCUSDT" true
      (fun period => (truncate · (liquidationBucketSize period))) trades Table.empty t t' :=
    ⟨fun _ _ _ => rfl, ⟨n, ht⟩, ⟨n', ht'⟩⟩
  have hliquidations : LiquidationsStored (ofPeriod "") aggregateJob events
      ⟨Table.empty, Table.empty⟩ db db' :=
    ⟨fun _ => ⟨by decide +kernel, by simp [events, liquidated, withPeriod, ofPeriod]⟩, by decide +kernel, fun _ _ _ => rfl, ⟨m, hdb⟩,
      ⟨m', hdb'⟩⟩
  obtain ⟨-, -, hiff⟩ := window_unchanged_iff 1 (5 * minute) (9 * minute) (fun _ => .obj [])
    (fun _ => .obj []) hflows hliquidations
  obtain ⟨hflow, hliq⟩ := hiff.2 ⟨by decide +kernel, by decide +kernel⟩
  exact ⟨t, t', db, db', hflows, hliquidations, hdelta, hflow, hliq⟩

/-- What a window from the fourth to the ninth minute shows once both series are
    stored, the one by the minute first. -/
def bothFlows (trades : List Trade) : Option (ℚ × ℚ) := do
  let (_, t) ← (upsertTakerFlows (flowsBy "1m" trades) Table.empty).toOption
  let (_, t') ← (upsertTakerFlows (flowsBy "5m" trades) t).toOption
  return (windowTakerDelta (fun _ => .obj []) t.rows 1 (4 * minute) (9 * minute),
    windowTakerDelta (fun _ => .obj []) t'.rows 1 (4 * minute) (9 * minute))

def bothLiquidations (events : List NormalizedLiquidationEvent) : Option (ℚ × ℚ) := do
  let (_, db) ← (upsertLiquidationAggregates
    (deriveLiquidationAggregates (aggregateJob "1m") events) ⟨Table.empty, Table.empty⟩).toOption
  let (_, db') ← (upsertLiquidationAggregates
    (deriveLiquidationAggregates (aggregateJob "5m") events) db).toOption
  return (windowLiquidationSum (fun _ => .obj []) db.aggregates.rows 1 (4 * minute) (9 * minute),
    windowLiquidationSum (fun _ => .obj []) db'.aggregates.rows 1 (4 * minute) (9 * minute))

/-- A trade and a liquidation in the seventh minute count once, and twice when the
    series of five minutes are stored as well. -/
theorem five_minutes_count_twice :
    bothFlows [⟨7 * minute, true, 1, 100⟩] = some (100, 200) ∧
      bothLiquidations [liquidated (7 * minute) 50] = some (50, 100) := by
  decide +kernel

end Examples

end Aggregator.Collectors.Core
