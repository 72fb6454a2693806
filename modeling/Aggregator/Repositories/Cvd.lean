/-
  The cumulative volume delta of taker flows
  (`internal/repositories/advanced.go`: `UpsertCVDFromTakerFlows`, `UpsertCVD`,
  `previousCVD`, `fillTakerFlowDeltas`).

  Each flow writes the delta of its time plus the value stored at the latest
  earlier time.  Every flow is a read and a transaction of its own, so the flows
  of a batch are written one after the other and those before an error stay.

  `cvd_prefixSum_iff`: a way of delivering the flows of a series leaves the sum
  of all deltas up to each time, whatever the deltas are, exactly when the last
  delivery of each time follows deliveries of all earlier times in their order.
-/
import Aggregator.Lib.Chain
import Aggregator.Lib.Table
import Aggregator.Normalizers.Validation
import Mathlib.Data.List.MinMax

namespace Aggregator.Repositories

open Aggregator.Go Aggregator.Normalizers

/-- The columns of the unique index of `cvd_snapshots`. -/
structure CvdKey where
  symbolID : ℤ
  exchange : String
  period : String
  snapshotTime : ℤ
deriving DecidableEq, Repr

def cvdKey (r : NormalizedCVD) : CvdKey := ⟨r.symbolID, r.exchange, r.period, r.snapshotTime⟩

abbrev CvdTable := Table cvdKey

/-- `DO UPDATE SET` every column outside the index. -/
def overCVD (new old : NormalizedCVD) : NormalizedCVD :=
  { new with
    symbolID := old.symbolID
    exchange := old.exchange
    period := old.period
    snapshotTime := old.snapshotTime }

theorem overCVD_key (new old : NormalizedCVD) : cvdKey (overCVD new old) = cvdKey old := rfl

/-- `UpsertCVD`: one transaction for all items; the table has the constraint
    `CHECK (exchange = lower(exchange))`. -/
def upsertCVD (items : List NormalizedCVD) (t : CvdTable) : Except String (ℕ × CvdTable) :=
  items.foldlM (fun (count, t) item => do
    validateCVD item
    if item.exchange ≠ toLower item.exchange then
      throw "upsert cvd: pq: new row violates check constraint"
    return (count + 1, t.upsert item (overCVD item) (overCVD_key item))) (0, t)

def firstFloat (values : List (Option ℚ)) : Option ℚ := values.findSome? id

def fillTakerFlowDeltas (item : NormalizedTakerFlow) : NormalizedTakerFlow :=
  { item with
    buySellDelta := item.buySellDelta <|> do
      return (← item.takerBuyVolume) - (← item.takerSellVolume)
    buySellDeltaQuote := item.buySellDeltaQuote <|> do
      return (← item.takerBuyQuoteVolume) - (← item.takerSellQuoteVolume)
    buySellRatio := item.buySellRatio <|> do
      let sell ← item.takerSellVolume
      let buy ← item.takerBuyVolume
      if sell ≠ 0 then return buy / sell else none }

/-- The change of a flow, if it is known. -/
def change (flow : NormalizedTakerFlow) : Option ℚ :=
  let flow := fillTakerFlowDeltas flow
  firstFloat [flow.buySellDeltaQuote, flow.buySellDelta]

/-- The value at the latest earlier time; 0 if there is none, or it is `NULL`. -/
def previousCVD (t : CvdTable) (symbolID : ℤ) (exchange period : String) (before : ℤ) : ℚ :=
  let rows := t.rows.filter fun r => r.symbolID = symbolID && r.exchange = exchange &&
    r.period = period && r.snapshotTime < before
  match rows.argmax (·.snapshotTime) with
  | none => 0
  | some r => r.cvdValue.getD 0

def cvdOfFlow (flow : NormalizedTakerFlow) (previous change : ℚ) : NormalizedCVD where
  toSourceMeta := flow.toSourceMeta
  period := flow.period
  snapshotTime := flow.snapshotTime
  cvdValue := some (previous + change)
  cvdDelta := some change
  cvdChange := some change
  cvdChangePercent := some (if previous ≠ 0 then change / previous * 100 else 0)
  buyVolume := flow.takerBuyVolume
  sellVolume := flow.takerSellVolume

/-- The number of rows written, or the error, and the table. -/
def upsertCVDFromTakerFlows : List NormalizedTakerFlow → CvdTable → Except String ℕ × CvdTable
  | [], t => (.ok 0, t)
  | flow :: flows, t =>
    match change flow with
    | none => upsertCVDFromTakerFlows flows t
    | some change =>
      let previous := previousCVD t flow.symbolID flow.exchange flow.period flow.snapshotTime
      match upsertCVD [cvdOfFlow flow previous change] t with
      | .error e => (.error e, t)
      | .ok (inserted, t) =>
        let (result, t) := upsertCVDFromTakerFlows flows t
        (result.map (inserted + ·), t)

/-! ## The flows of one series -/

def seriesKey (s : Series) (time : ℤ) : CvdKey := ⟨s.symbolID, s.exchange, s.period, time⟩

/-- A flow of the series at a time, with a known delta. -/
structure IsFlow (s : Series) (time : ℤ) (flow : NormalizedTakerFlow) : Prop where
  symbolID : flow.symbolID = s.symbolID
  exchange : flow.exchange = s.exchange
  period : flow.period = s.period
  snapshotTime : flow.snapshotTime = time
  sourceSymbol : trimSpace flow.sourceSymbol ≠ ""
  known : (change flow).isSome

/-- The known delta of a flow. -/
def delta (flow : NormalizedTakerFlow) : ℚ := (change flow).getD 0

section
variable {s : Series} {flow : ℤ → NormalizedTakerFlow} {past : List ℤ} {t : CvdTable}

/-- The table after the flows of the times `past`, latest first. -/
structure Totals (s : Series) (flow : ℤ → NormalizedTakerFlow) (past : List ℤ) (t : CvdTable) :
    Prop where
  key : ∀ r ∈ t, cvdKey r = seriesKey s r.snapshotTime
  value : ∀ u, (t.find (seriesKey s u)).map (·.cvdValue) =
    if u ∈ past then some (some ((chain past u).map (delta ∘ flow)).sum) else none

theorem totals_empty (s : Series) (flow : ℤ → NormalizedTakerFlow) :
    Totals s flow [] Table.empty := by
  refine ⟨?_, fun u => by simp⟩
  intro r hr
  cases hr

theorem Totals.mem_iff (h : Totals s flow past t) {u : ℤ} :
    u ∈ past ↔ ∃ r ∈ t, r.snapshotTime = u := by
  have hv := h.value u
  constructor
  · intro hu
    rw [if_pos hu, Option.map_eq_some_iff] at hv
    obtain ⟨r, hr, -⟩ := hv
    obtain ⟨hr, hk⟩ := Table.find_eq_some.1 hr
    exact ⟨r, hr, congrArg CvdKey.snapshotTime hk⟩
  · rintro ⟨r, hr, rfl⟩
    by_contra hu
    rw [if_neg hu, ← h.key r hr, Table.find_of_mem hr] at hv
    cases hv

theorem Totals.cvdValue (h : Totals s flow past t) {r : NormalizedCVD} (hr : r ∈ t) :
    r.cvdValue = some ((chain past r.snapshotTime).map (delta ∘ flow)).sum := by
  have hv := h.value r.snapshotTime
  rw [if_pos (h.mem_iff.2 ⟨r, hr, rfl⟩), ← h.key r hr, Table.find_of_mem hr] at hv
  exact Option.some.inj hv

/-- The previous value is the total of the greatest smaller time. -/
theorem Totals.previousCVD (h : Totals s flow past t) (u : ℤ) :
    previousCVD t s.symbolID s.exchange s.period u =
      match (past.filter (· < u)).max? with
      | none => 0
      | some v => ((chain past v).map (delta ∘ flow)).sum := by
  have hmem : ∀ r, r ∈ (t.rows.filter fun r => r.symbolID = s.symbolID &&
      r.exchange = s.exchange && r.period = s.period && r.snapshotTime < u) ↔
        r ∈ t ∧ r.snapshotTime < u := by
    intro r
    simp only [List.mem_filter, Table.mem_rows, Bool.and_eq_true, decide_eq_true_eq]
    refine ⟨fun ⟨hr, hk⟩ => ⟨hr, hk.2⟩, fun ⟨hr, hlt⟩ => ⟨hr, ?_⟩⟩
    have hk := h.key r hr
    simp only [cvdKey, seriesKey, CvdKey.mk.injEq] at hk
    exact ⟨⟨⟨hk.1, hk.2.1⟩, hk.2.2.1⟩, hlt⟩
  rw [Repositories.previousCVD]
  split
  · rename_i hnone
    have hnil := List.argmax_eq_none.1 hnone
    have hmax : (past.filter (· < u)).max? = none := by
      rw [max?_filter_eq_none]
      intro v hv
      by_contra hlt
      obtain ⟨r, hr, rfl⟩ := h.mem_iff.1 hv
      have := (hmem r).2 ⟨hr, not_le.1 hlt⟩
      rw [hnil] at this
      cases this
    rw [hmax]
  · rename_i r hsome
    obtain ⟨hr, hlt⟩ := (hmem r).1 (List.argmax_mem hsome)
    have hmax : (past.filter (· < u)).max? = some r.snapshotTime := by
      rw [max?_filter_eq_some]
      refine ⟨⟨h.mem_iff.2 ⟨r, hr, rfl⟩, hlt⟩, fun v hv hvu => ?_⟩
      obtain ⟨r', hr', rfl⟩ := h.mem_iff.1 hv
      exact List.le_of_mem_argmax ((hmem r').2 ⟨hr', hvu⟩) hsome
    rw [hmax, h.cvdValue hr]
    rfl

theorem validateCVD_cvdOfFlow (hs : s.Valid) {u : ℤ} (hu : u ≠ 0) (hf : IsFlow s u (flow u))
    (previous change : ℚ) : validateCVD (cvdOfFlow (flow u) previous change) = .ok () := by
  have hsource : validateSource (flow u).toSourceMeta = .ok () :=
    hs.validateSource hf.symbolID hf.exchange hf.sourceSymbol
  have hperiod : validatePeriod (flow u).period = .ok () := by rw [hf.period]; exact hs.2.2.1
  rw [validateCVD_iff, cvdOfFlow, hf.snapshotTime]
  exact ⟨hsource, hu, hperiod⟩

theorem upsertCVD_singleton {item : NormalizedCVD} (h : validateCVD item = .ok ())
    (hlower : item.exchange = toLower item.exchange) (t : CvdTable) :
    upsertCVD [item] t = .ok (1, t.upsert item (overCVD item) (overCVD_key item)) := by
  rw [upsertCVD, List.foldlM_cons, h]
  dsimp only [bind, Except.bind]
  rw [if_neg (not_not_intro hlower)]
  rfl

/-- **One flow.** -/
theorem Totals.upsert (h : Totals s flow past t) {u : ℤ} (hf : IsFlow s u (flow u)) {c : ℚ}
    (hc : change (flow u) = some c) {r : NormalizedCVD}
    (hr : r = cvdOfFlow (flow u) (Repositories.previousCVD t s.symbolID s.exchange s.period u) c) :
    Totals s flow (u :: past) (t.upsert r (overCVD r) (overCVD_key r)) := by
  have hkey : cvdKey r = seriesKey s u := by
    rw [hr]
    simp only [cvdKey, cvdOfFlow, seriesKey, hf.symbolID, hf.exchange, hf.period, hf.snapshotTime]
  have hvalue : r.cvdValue = some ((chain (u :: past) u).map (delta ∘ flow)).sum := by
    have hd : delta (flow u) = c := by rw [delta, hc]; rfl
    rw [hr, chain, if_pos rfl, List.map_cons, List.sum_cons, Function.comp_apply, hd, add_comm]
    simp only [cvdOfFlow, h.previousCVD u]
    cases (past.filter (· < u)).max? <;> rfl
  refine ⟨fun r' hr' => ?_, fun v => ?_⟩
  · have hfind := Table.find_of_mem hr'
    rw [Table.find_upsert] at hfind
    split at hfind
    · rename_i hk
      rw [← hk, hkey]
      have := congrArg CvdKey.snapshotTime (hk.symm.trans hkey)
      exact congrArg (seriesKey s) this.symm
    · exact h.key r' (Table.find_eq_some.1 hfind).1
  · rw [Table.find_upsert, hkey]
    by_cases huv : u = v
    · subst huv
      rw [if_pos rfl, if_pos List.mem_cons_self, ← hvalue]
      cases t.find (seriesKey s u) <;> rfl
    · have hne : seriesKey s u ≠ seriesKey s v := fun hk => huv (congrArg CvdKey.snapshotTime hk)
      rw [if_neg hne, h.value v, chain, if_neg huv]
      simp only [List.mem_cons, Ne.symm huv, false_or]

/-- A batch is written flow by flow. -/
theorem Totals.batch (hs : s.Valid) {times : List ℤ} (hz : ∀ u ∈ times, u ≠ 0)
    (hf : ∀ u ∈ times, IsFlow s u (flow u)) (h : Totals s flow past t) :
    Totals s flow (times.reverse ++ past) (upsertCVDFromTakerFlows (times.map flow) t).2 := by
  induction times generalizing past t with
  | nil => exact h
  | cons u times ih =>
    have hfu := hf u List.mem_cons_self
    obtain ⟨c, hc⟩ := Option.isSome_iff_exists.1 hfu.known
    rw [List.reverse_cons, List.append_assoc, List.singleton_append]
    have hlower : (flow u).exchange = toLower (flow u).exchange := by
      rw [hfu.exchange]
      exact hs.2.2.2
    have hup := upsertCVD_singleton (validateCVD_cvdOfFlow hs (hz u List.mem_cons_self) hfu
      (Repositories.previousCVD t s.symbolID s.exchange s.period u) c) hlower t
    rw [List.map_cons, upsertCVDFromTakerFlows, hc, hfu.symbolID, hfu.exchange, hfu.period,
      hfu.snapshotTime]
    simp only [hup]
    exact ih (fun v hv => hz v (List.mem_cons_of_mem _ hv))
      (fun v hv => hf v (List.mem_cons_of_mem _ hv)) (h.upsert hfu hc rfl)

end

/-! ## Ways of delivering a series -/

/-- The table after the batches of the flows of these times. -/
def deliver (flow : ℤ → NormalizedTakerFlow) (batches : List (List ℤ)) (t : CvdTable) : CvdTable :=
  batches.foldl (fun t times => (upsertCVDFromTakerFlows (times.map flow) t).2) t

theorem Totals.deliver {s : Series} (hs : s.Valid) {flow : ℤ → NormalizedTakerFlow}
    {batches : List (List ℤ)} {past : List ℤ} {t : CvdTable}
    (hz : ∀ u ∈ batches.flatten, u ≠ 0) (hf : ∀ u ∈ batches.flatten, IsFlow s u (flow u))
    (h : Totals s flow past t) :
    Totals s flow (batches.flatten.reverse ++ past) (deliver flow batches t) := by
  induction batches generalizing past t with
  | nil => exact h
  | cons times batches ih =>
    rw [List.flatten_cons] at hz hf ⊢
    rw [List.reverse_append, List.append_assoc]
    exact ih (fun u hu => hz u (List.mem_append_right _ hu))
      (fun u hu => hf u (List.mem_append_right _ hu))
      (h.batch hs (fun u hu => hz u (List.mem_append_left _ hu))
        fun u hu => hf u (List.mem_append_left _ hu))

/-- The stored value of each delivered time is the sum of all deltas up to it. -/
def PrefixSums (s : Series) (flow : ℤ → NormalizedTakerFlow) (batches : List (List ℤ)) : Prop :=
  ∀ u ∈ batches.flatten, ∃ r ∈ (deliver flow batches Table.empty).find (seriesKey s u),
    r.cvdValue = some (∑ v ∈ keysUpTo batches.flatten u, delta (flow v))

/-- A flow of the series with a given delta. -/
def flowOf (s : Series) (δ : ℤ → ℚ) (time : ℤ) : NormalizedTakerFlow where
  symbolID := s.symbolID
  exchange := s.exchange
  sourceSymbol := "BTCUSDT"
  period := s.period
  snapshotTime := time
  takerBuyVolume := none
  takerSellVolume := none
  takerBuyQuoteVolume := none
  takerSellQuoteVolume := none
  buySellDelta := none
  buySellDeltaQuote := some (δ time)
  buySellRatio := none

theorem isFlow_flowOf (s : Series) (δ : ℤ → ℚ) (time : ℤ) : IsFlow s time (flowOf s δ time) := by
  have hsymbol : trimSpace "BTCUSDT" ≠ "" := by decide
  exact ⟨rfl, rfl, rfl, rfl, hsymbol, rfl⟩

theorem keysUpTo_reverse (times : List ℤ) (u : ℤ) :
    keysUpTo times.reverse u = keysUpTo times u := by
  ext v; simp [mem_keysUpTo]

/-- What is stored is the sum along the chain. -/
theorem prefixSums_iff_chain {s : Series} (hs : s.Valid) {flow : ℤ → NormalizedTakerFlow}
    {batches : List (List ℤ)} (hz : ∀ u ∈ batches.flatten, u ≠ 0)
    (hf : ∀ u ∈ batches.flatten, IsFlow s u (flow u)) :
    PrefixSums s flow batches ↔ ∀ u ∈ batches.flatten,
      ((chain batches.flatten.reverse u).map (delta ∘ flow)).sum =
        ∑ v ∈ keysUpTo batches.flatten u, delta (flow v) := by
  have htotals := (totals_empty s flow).deliver hs hz hf
  rw [List.append_nil] at htotals
  refine forall₂_congr fun u hu => ?_
  have hv := htotals.value u
  rw [if_pos (List.mem_reverse.2 hu), Option.map_eq_some_iff] at hv
  obtain ⟨r, hr, hval⟩ := hv
  constructor
  · rintro ⟨r', hr', hsum⟩
    obtain rfl := Option.mem_unique hr hr'
    exact Option.some.inj (hval.symm.trans hsum)
  · intro hsum
    exact ⟨r, hr, by rw [hval, hsum]⟩

theorem cvd_prefixSum_iff {s : Series} (hs : s.Valid) {batches : List (List ℤ)}
    (hz : ∀ u ∈ batches.flatten, u ≠ 0) :
    (∀ flow : ℤ → NormalizedTakerFlow, (∀ u ∈ batches.flatten, IsFlow s u (flow u)) →
      PrefixSums s flow batches) ↔
        ∀ u ∈ batches.flatten, InOrder batches.flatten.reverse u := by
  constructor
  · intro h u hu
    rw [← forall_sum_chain_iff (α := ℚ)]
    intro δ
    have hsums := (prefixSums_iff_chain hs hz fun v _ => isFlow_flowOf s δ v).1
      (h (flowOf s δ) fun v _ => isFlow_flowOf s δ v) u hu
    rw [keysUpTo_reverse]
    exact hsums
  · intro h flow hf
    rw [prefixSums_iff_chain hs hz hf]
    intro u hu
    rw [← keysUpTo_reverse]
    exact (forall_sum_chain_iff (α := ℚ) _ u).2 (h u hu) _

/-- Oldest first, in two batches the second of which repeats the last flow. -/
theorem cvd_prefixSum_iff_oldestFirst :
    Series.Valid ⟨1, "binance", "5m"⟩ ∧ ∀ flow : ℤ → NormalizedTakerFlow,
      (∀ u ∈ [[60, 120], [120, 180]].flatten, IsFlow ⟨1, "binance", "5m"⟩ u (flow u)) →
        PrefixSums ⟨1, "binance", "5m"⟩ flow [[60, 120], [120, 180]] := by
  have hvalid : Series.Valid ⟨1, "binance", "5m"⟩ := ⟨by decide, by decide, by rfl, by decide⟩
  exact ⟨hvalid, (cvd_prefixSum_iff hvalid (by decide)).2 (by decide +kernel)⟩

/-- Newest first, the earlier delta is missing from the later value. -/
theorem newestFirst_misses_delta :
    Series.Valid ⟨1, "binance", "5m"⟩ ∧
      (∀ u ∈ [[120, 60]].flatten,
        IsFlow ⟨1, "binance", "5m"⟩ u (flowOf ⟨1, "binance", "5m"⟩ (fun _ => 1) u)) ∧
      ¬PrefixSums ⟨1, "binance", "5m"⟩ (flowOf ⟨1, "binance", "5m"⟩ fun _ => 1) [[120, 60]] := by
  refine ⟨⟨by decide, by decide, by rfl, by decide⟩, fun u _ => isFlow_flowOf _ _ u, fun h => ?_⟩
  obtain ⟨r, hr, hval⟩ := h 120 (by decide)
  have hstored : ((deliver (flowOf ⟨1, "binance", "5m"⟩ fun _ => 1) [[120, 60]]
      Table.empty).find (seriesKey ⟨1, "binance", "5m"⟩ 120)).map (·.cvdValue) =
        some (some 1) := by decide +kernel
  have hsum : ∑ v ∈ keysUpTo [[120, 60]].flatten 120,
      delta (flowOf ⟨1, "binance", "5m"⟩ (fun _ => 1) v) = 2 := by decide +kernel
  rw [hr, Option.map_some, hval, hsum] at hstored
  exact absurd hstored (by decide +kernel)

end Aggregator.Repositories
