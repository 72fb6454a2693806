/-
  The keys of liquidation events.

  A key joins a symbol, a side and a time of the response with hyphens.  The
  exchange, the price and the quantity are no part of it, and the parts may have
  hyphens themselves.  `UpsertLiquidationEvents` takes two events with the same
  key for one.

  * `Liquidation.key_eq_iff`: two keys are the same if they have the same
    segments between hyphens;
  * `Emission`: an event that an adapter emits, with where it comes from;
  * `eventKeys_iff`: the pairs of events that differ and are both stored.
-/
import Aggregator.Exchanges.Liquidations

namespace Aggregator.Exchanges

open Aggregator.Go Aggregator.Normalizers Aggregator.Scheduler Aggregator.Repositories

/-! ## Segments -/

/-- The pieces between the hyphens of the parts of the key. -/
def Liquidation.segments (item : Liquidation) : List (List Char) :=
  item.keyParts.1.toList.splitOn '-' ++
    (item.keyParts.2.1.toList.splitOn '-' ++ item.keyParts.2.2.toList.splitOn '-')

theorem splitOn_injective {α : Type} [BEq α] [LawfulBEq α] (x : α) :
    Function.Injective (List.splitOn x) :=
  Function.LeftInverse.injective (g := List.intercalate [x]) fun _ => List.intercalate_splitOn x

theorem Liquidation.splitOn_key (item : Liquidation) :
    item.key.toList.splitOn '-' = item.segments := by
  rw [key, eventKey_toList, List.splitOn_append_cons_self, List.splitOn_append_cons_self, segments]

theorem Liquidation.key_eq_iff {item item' : Liquidation} :
    item.key = item'.key ↔ item.segments = item'.segments := by
  rw [← splitOn_key, ← splitOn_key, (splitOn_injective '-').eq_iff, String.toList_inj]

/-! ## Emissions -/

/-- An item of a response whose event the adapter emits. -/
structure Emission (pf : ParseFloat) where
  exchange : Exchange
  resp : ExchangeResponse
  job : Job
  symbol : Symbol
  items : List Liquidation
  read : liquidations exchange resp.body = .ok items
  item : Liquidation
  mem : item ∈ items
  valid : item.Valid pf job symbol

namespace Emission
variable {pf : ParseFloat}

def event (a : Emission pf) : NormalizedLiquidationEvent := a.item.event pf a.job a.symbol

/-- The events of a result are those of the emissions of its response. -/
theorem mem_result_iff {exchange : Exchange} {resp : ExchangeResponse} {job : Job}
    {symbol : Symbol} {result : NormalizedResult} {event : NormalizedLiquidationEvent}
    (h : normalize pf exchange "liquidation" resp job symbol = .ok result) :
    event ∈ result.liquidationEvents ↔ ∃ a : Emission pf,
      (a.exchange, a.resp, a.job, a.symbol) = (exchange, resp, job, symbol) ∧ a.event = event := by
  constructor
  · intro hevent
    obtain ⟨-, items, hitems, hemitted⟩ := liquidations_of_normalize h hevent
    obtain ⟨item, hitem, hvalid, rfl⟩ := mem_emitted.1 hemitted
    exact ⟨⟨exchange, resp, job, symbol, items, hitems, item, hitem, hvalid⟩, rfl, rfl⟩
  · rintro ⟨a, ha, rfl⟩
    obtain ⟨rfl, rfl, rfl, rfl⟩ := by simpa only [Prod.mk.injEq] using ha
    obtain ⟨result', hresult', hevents⟩ := normalize_of_liquidations pf a.job a.symbol a.read
    obtain rfl := Except.ok.inj (h.symm.trans hresult')
    rw [hevents]
    exact mem_emitted.2 ⟨a.item, a.mem, a.valid, rfl⟩

theorem eventKey_eq (a : Emission pf) : a.event.eventKey = a.item.key := by
  rw [event, Liquidation.event_eq]
  rfl

theorem validate_event (a : Emission pf) : validateLiquidationEvent a.event = .ok () :=
  a.item.validate_iff.2 a.valid

/-- The liquidations differ in the exchange, the symbol, the side, the price, the
    quantity or the time. -/
def Differs (a b : Emission pf) : Prop :=
  a.item.exchange ≠ b.item.exchange ∨ a.job.sourceSymbol ≠ b.job.sourceSymbol ∨
    a.item.side ≠ b.item.side ∨ a.item.price pf ≠ b.item.price pf ∨
    a.item.quantity pf ≠ b.item.quantity pf ∨ a.item.eventTime ≠ b.item.eventTime

end Emission

/-! ## Storing two events -/

/-- The events have different keys, and storing both in a table that has neither
    leaves the row of each.  This is what the call does where the rows satisfy
    the constraints. -/
structure BothStored (e e' : NormalizedLiquidationEvent) : Prop where
  eventKey : e.eventKey ≠ e'.eventKey
  stored : ∀ db : LiquidationDB, db.events.find e.eventKey = none →
    db.events.find e'.eventKey = none →
    let events := [e, e'].foldl storeEvent db.events
    events.find e.eventKey = some (eventRow e) ∧ events.find e'.eventKey = some (eventRow e') ∧
      (eventConstraints e = true → eventConstraints e' = true →
        upsertLiquidationEvents 0 [e, e'] db = .ok (2, { db with events := events }))

theorem bothStored_of_ne {e e' : NormalizedLiquidationEvent}
    (hv : validateLiquidationEvent e = .ok ()) (hv' : validateLiquidationEvent e' = .ok ())
    (hne : e.eventKey ≠ e'.eventKey) : BothStored e e' := by
  refine ⟨hne, fun db hfree hfree' => ⟨?_, ?_, fun hc hc' => ?_⟩⟩
  · simp only [List.foldl_cons, List.foldl_nil, find_storeEvent, hne.symm, hfree, ↓reduceIte,
      Option.elim_none]
  · simp only [List.foldl_cons, List.foldl_nil, find_storeEvent, hne, hfree', ↓reduceIte,
      Option.elim_none]
  · have hvalid : ∀ item ∈ [e, e'], validateLiquidationEvent item = .ok () := by
      simp [hv, hv']
    have hboth : ∀ item ∈ [e, e'],
        validateLiquidationEvent item = .ok () ∧ eventConstraints item = true := by
      simp [hv, hv', hc, hc']
    have hupsert : upsertLiquidationEvents 0 [e, e'] db = _ := upsertLiquidationEvents_eq hboth db
    rwa [large_zero hvalid] at hupsert

/-- **The keys of events**: two liquidations that differ have different keys, and
    their events are both stored, exactly if the parts of their keys have different
    segments. -/
theorem eventKeys_iff {pf : ParseFloat} (a b : Emission pf) :
    (a.Differs b → BothStored a.event b.event) ↔
      (a.Differs b → a.item.segments ≠ b.item.segments) := by
  refine imp_congr_right fun _ => ?_
  have hkey : a.event.eventKey ≠ b.event.eventKey ↔ a.item.segments ≠ b.item.segments := by
    rw [a.eventKey_eq, b.eventKey_eq]
    exact Liquidation.key_eq_iff.not
  rw [← hkey]
  exact ⟨BothStored.eventKey, bothStored_of_ne a.validate_event b.validate_event⟩

/-! ### Liquidations that share a key -/

/-- An order of `forceOrder`, decoded. -/
def forceOrderItem (price : String) : Liquidation :=
  .binance
    { symbol := "BTCUSDT"
      price := price
      origQty := "0.5"
      executedQty := "0.5"
      averagePrice := price
      status := "FILLED"
      time := 1700000000000
      side := "SELL" }

/-- Two orders of one millisecond, the first at a higher price. -/
def firstOrder : Emission parseDecimal where
  exchange := .binance
  resp := ⟨some (.arr [forceOrder "36500.1", forceOrder "36400"]), unixMilli 1700000000000⟩
  job := sampleJob "binance" "liquidation"
  symbol := ⟨1⟩
  items := [forceOrderItem "36500.1", forceOrderItem "36400"]
  read := rfl
  item := forceOrderItem "36500.1"
  mem := List.mem_cons_self
  valid := (Liquidation.validate_iff _).1 (by decide +kernel)

def secondOrder : Emission parseDecimal :=
  { firstOrder with
    item := forceOrderItem "36400"
    mem := List.mem_cons_of_mem _ List.mem_cons_self
    valid := (Liquidation.validate_iff _).1 (by decide +kernel) }

/-- The first order on bybit. -/
def bybitOrder : Emission parseDecimal where
  exchange := .bybit
  resp := ⟨some (.obj [("retCode", .int 0), ("result", .obj [("list", .arr [.obj
    [("symbol", .str "BTCUSDT"), ("side", .str "Sell"), ("price", .str "36500.1"),
      ("size", .str "0.5"), ("timestamp", .str "1700000000000")]])])]), unixMilli 1700000000000⟩
  job := sampleJob "bybit" "liquidation"
  symbol := ⟨1⟩
  items := [.bybit ⟨"BTCUSDT", "Sell", "36500.1", "0.5", "1700000000000"⟩]
  read := rfl
  item := .bybit ⟨"BTCUSDT", "Sell", "36500.1", "0.5", "1700000000000"⟩
  mem := List.mem_cons_self
  valid := (Liquidation.validate_iff _).1 (by decide +kernel)

/-- The key of the first order is also that of an order at another price and of
    an order on another exchange. -/
theorem orders_share_key :
    (firstOrder.Differs secondOrder ∧ ¬BothStored firstOrder.event secondOrder.event) ∧
      firstOrder.Differs bybitOrder ∧ ¬BothStored firstOrder.event bybitOrder.event := by
  refine ⟨⟨?_, fun h => h.eventKey ?_⟩, ?_, fun h => h.eventKey ?_⟩
  · exact .inr (.inr (.inr (.inl (by decide +kernel))))
  · decide +kernel
  · exact .inl (by decide +kernel)
  · decide +kernel

end Aggregator.Exchanges
