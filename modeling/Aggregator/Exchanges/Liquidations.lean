/-
  Liquidations from the response to the table.

  The adapters make an event of each item of a response (`Liquidation.event`),
  `FilterNormalizedResult` keeps some of them, and `UpsertLiquidationEvents`
  stores these.  The table admits the sides `buy`, `sell`, `long`, `short` and
  `unknown`, but the adapters write upper-case sides; only that of binance passes
  on the text of the response.

  * `normalize_liquidation`: the events that an adapter emits;
  * `Liquidation.check_iff`: the items whose events are kept;
  * `constraints_iff`: the responses whose kept events can be stored.
-/
import Aggregator.Exchanges.Normalize
import Aggregator.Hardening.Filter
import Aggregator.Repositories.Liquidation

namespace Aggregator.Exchanges

open Aggregator.Go Aggregator.Normalizers Aggregator.Scheduler Aggregator.Hardening
  Aggregator.Repositories

/-! ## Items -/

/-- An item of a response about liquidations; bitget has none. -/
inductive Liquidation
  | binance (item : Binance.LiquidationItem)
  | okx (item : Okx.LiquidationRecord)
  | bybit (item : Bybit.LiquidationRecord)
  | gate (item : Gate.LiquidationItem)
  | mexc (item : Mexc.LiquidationItem)

/-- The items of a response. -/
def liquidations (exchange : Exchange) (body : Option Json) : Outcome (List Liquidation) :=
  match exchange with
  | .binance => do
    let items ← Binance.readLiquidations body
    return items.map .binance
  | .okx => do
    let data ← Okx.readEnvelope body
    let items ← Okx.readLiquidations data
    return items.map .okx
  | .bybit => do
    let list ← Bybit.readLiquidations body
    return list.map .bybit
  | .bitget => fail errUnsupportedDataType
  | .gate => do
    let items ← Gate.readLiquidations body
    return items.map .gate
  | .mexc => do
    let items ← Mexc.readLiquidations body
    return items.map .mexc

namespace Liquidation

section
variable (pf : ParseFloat) (job : Job) (symbol : Symbol)

/-- The event that the adapter makes of an item. -/
def event : Liquidation → NormalizedLiquidationEvent
  | .binance item => Binance.liquidation pf job symbol item
  | .okx item => Okx.liquidation pf job symbol item
  | .bybit item => Bybit.liquidation pf job symbol item
  | .gate item => Gate.liquidation pf job symbol item
  | .mexc item => Mexc.liquidation job symbol item

def exchange : Liquidation → String
  | .binance _ => "binance"
  | .okx _ => "okx"
  | .bybit _ => "bybit"
  | .gate _ => "gate"
  | .mexc _ => "mexc"

def eventTime : Liquidation → ℤ
  | .binance item => unixMilli item.time
  | .okx item => mustTime (millisToTime (.str item.ts))
  | .bybit item => mustTime (millisToTime (.str item.timestamp))
  | .gate item => unixSeconds item.time
  | .mexc item => unixSeconds item.time

def side : Liquidation → String
  | .binance item => item.side
  | .okx item => Okx.side item
  | .bybit item => toUpper item.side
  | .gate item => Gate.side item
  | .mexc item => Mexc.side item

def price : Liquidation → Option ℚ
  | .binance item => floatPtrSafe pf (.str item.price)
  | .okx item => floatPtrSafe pf (.str item.bkPx)
  | .bybit item => floatPtrSafe pf (.str item.price)
  | .gate item => floatPtrSafe pf (.str item.price)
  | .mexc item => some item.price

def quantity : Liquidation → Option ℚ
  | .binance item => floatPtrSafe pf (.str item.origQty)
  | .okx item => floatPtrSafe pf (.str item.sz)
  | .bybit item => floatPtrSafe pf (.str item.size)
  | .gate item => some (if item.size < 0 then -item.size else item.size)
  | .mexc item => some item.qty

/-- The symbol, the side and the time that the key is made of. -/
def keyParts : Liquidation → String × String × String
  | .binance item => (item.symbol, item.side, toString item.time)
  | .okx item => (item.instID, Okx.side item, item.ts)
  | .bybit item => (item.symbol, toUpper item.side, item.timestamp)
  | .gate item => (item.contract, Gate.side item, toString item.time)
  | .mexc item => (item.symbol, item.side, toString item.time)

def key (item : Liquidation) : String :=
  eventKey item.keyParts.1 item.keyParts.2.1 item.keyParts.2.2

theorem event_eq (item : Liquidation) :
    item.event pf job symbol = liquidationEvent item.exchange item.key item.eventTime item.side
      (item.price pf) (item.quantity pf) job symbol := by
  cases item <;> rfl

/-- The event of an item passes the check of the adapters. -/
structure Valid (item : Liquidation) : Prop where
  symbolID : 0 < symbol.id
  sourceSymbol : trimSpace job.sourceSymbol ≠ ""
  time : item.eventTime ≠ 0
  side : trimSpace item.side ≠ ""
  price : ∀ p ∈ item.price pf, 0 ≤ p
  quantity : ∀ q ∈ item.quantity pf, 0 ≤ q

end

/-! ## The checks -/

section
variable {pf : ParseFloat} {job : Job} {symbol : Symbol}

theorem eventKey_toList (symbol side time : String) :
    (eventKey symbol side time).toList =
      symbol.toList ++ '-' :: (side.toList ++ '-' :: time.toList) := by
  change (symbol ++ "-" ++ side ++ "-" ++ time).toList = _
  simp

/-- A key is never blank: it has hyphens. -/
theorem trimSpace_key (item : Liquidation) : trimSpace item.key ≠ "" := by
  intro h
  have hmem : '-' ∈ item.key.toList := by
    rw [key, eventKey_toList]
    exact List.mem_append_right _ List.mem_cons_self
  exact absurd (trimSpace_eq_empty.1 h '-' hmem) (by decide)

/-- The names of the exchanges are lower case and not blank. -/
theorem exchange_valid (item : Liquidation) :
    trimSpace item.exchange ≠ "" ∧ item.exchange = toLower item.exchange := by
  have hmem : item.exchange ∈ ["binance", "okx", "bybit", "gate", "mexc"] := by
    cases item <;> simp [exchange]
  have hall : ∀ name ∈ ["binance", "okx", "bybit", "gate", "mexc"],
      trimSpace name ≠ "" ∧ name = toLower name := by decide
  exact hall _ hmem

theorem validate_iff (item : Liquidation) :
    validateLiquidationEvent (item.event pf job symbol) = .ok () ↔ item.Valid pf job symbol := by
  rw [event_eq, validateLiquidationEvent_iff, validateSource_iff]
  constructor
  · rintro ⟨⟨hid, -, hsource⟩, -, htime, hside, hprice, hquantity, -⟩
    exact ⟨hid, hsource, htime, hside, hprice, hquantity⟩
  · rintro ⟨hid, hsource, htime, hside, hprice, hquantity⟩
    -- the value is a product of two numbers that have been checked, or zero
    have hnotional : ∀ n ∈ (liquidationEvent item.exchange item.key item.eventTime item.side
        (item.price pf) (item.quantity pf) job symbol).notional, 0 ≤ n := by
      rintro n hn
      obtain rfl := Option.some.inj hn
      split
      · rename_i p q hp hq
        exact mul_nonneg (hprice p hp) (hquantity q hq)
      · exact le_refl 0
    exact ⟨⟨hid, item.exchange_valid.1, hsource⟩, trimSpace_key item, htime, hside, hprice,
      hquantity, hnotional, hnotional⟩

/-- The filter adds that the event is not too far in the future. -/
theorem check_iff (item : Liquidation) {now : ℤ} {cfg : ValidationConfig} :
    checkLiquidationEvent job now cfg (item.event pf job symbol) = .ok () ↔
      item.Valid pf job symbol ∧ item.eventTime ≤ now + futureSkew cfg := by
  rw [checkLiquidationEvent_iff, validate_iff, validateSourceAndTime_iff, event_eq,
    validateSource_iff]
  constructor
  · rintro ⟨⟨-, -, -, hfuture⟩, hvalid⟩
    exact ⟨hvalid, hfuture⟩
  · rintro ⟨hvalid, hfuture⟩
    exact ⟨⟨⟨hvalid.symbolID, item.exchange_valid.1, hvalid.sourceSymbol⟩, fun _ => rfl,
      hvalid.time, hfuture⟩, hvalid⟩

/-- The filter gives no event of an adapter another key. -/
theorem withEventKey_event (item : Liquidation) (f : NormalizedLiquidationEvent → String) :
    withEventKey f (item.event pf job symbol) = item.event pf job symbol := by
  rw [event_eq]
  exact if_neg (trimSpace_key item)

end

/-! ## The constraints of the table -/

/-- The item has a side that the table admits. -/
def Storable : Liquidation → Prop
  | .binance item => item.side ∈ ["buy", "sell", "long", "short", "unknown"]
  | _ => False

/-- No side that the table admits is upper case. -/
theorem not_admitted {side : String} (h : toUpper side = side) :
    side ∉ ["buy", "sell", "long", "short", "unknown"] := by
  have hlower : ∀ s ∈ ["buy", "sell", "long", "short", "unknown"], toUpper s ≠ s := by decide
  exact fun hmem => hlower side hmem h

theorem toUpper_order (c : Prop) [Decidable c] :
    toUpper (if c then "SELL" else "BUY") = if c then "SELL" else "BUY" := by
  split_ifs <;> rfl

theorem admitted_iff (item : Liquidation) :
    item.side ∈ ["buy", "sell", "long", "short", "unknown"] ↔ item.Storable := by
  cases item with
  | binance item => exact Iff.rfl
  | okx item => exact iff_of_false (not_admitted (toUpper_order _)) id
  | bybit item => exact iff_of_false (not_admitted (toUpper_toUpper item.side)) id
  | gate item => exact iff_of_false (not_admitted (toUpper_order _)) id
  | mexc item => exact iff_of_false (not_admitted (toUpper_order _)) id

theorem eventConstraints_iff (item : Liquidation) (pf : ParseFloat) (job : Job) (symbol : Symbol) :
    eventConstraints (item.event pf job symbol) = true ↔ item.Storable := by
  rw [← admitted_iff, event_eq, eventConstraints, Bool.and_eq_true, decide_eq_true_eq,
    decide_eq_true_eq]
  exact and_iff_right item.exchange_valid.2

end Liquidation

/-! ## What the adapters emit -/

section
variable (pf : ParseFloat) (job : Job) (symbol : Symbol)

/-- The events of the items that pass. -/
def emitted (items : List Liquidation) : List NormalizedLiquidationEvent :=
  emit validateLiquidationEvent (items.map (·.event pf job symbol))

variable {pf job symbol}

theorem mem_emitted {items : List Liquidation} {event : NormalizedLiquidationEvent} :
    event ∈ emitted pf job symbol items ↔
      ∃ item ∈ items, item.Valid pf job symbol ∧ item.event pf job symbol = event := by
  rw [emitted, emit, List.mem_filter, List.mem_map, isOk_iff]
  constructor
  · rintro ⟨⟨item, hitem, rfl⟩, hvalid⟩
    exact ⟨item, hitem, item.validate_iff.1 hvalid, rfl⟩
  · rintro ⟨item, hitem, hvalid, rfl⟩
    exact ⟨⟨item, hitem, rfl⟩, item.validate_iff.2 hvalid⟩

/-- A list that is read, and the events of its elements. -/
theorem liquidationEvents_of_read {ι : Type} (read : Outcome (List ι)) (make : ι → Liquidation)
    (result : List ι → NormalizedResult)
    (hresult : ∀ items, (result items).liquidationEvents =
      emit validateLiquidationEvent (items.map fun i => (make i).event pf job symbol)) :
    (do let items ← read; return result items : Outcome _).map (·.liquidationEvents) =
      (do let items ← read; return items.map make : Outcome _).map (emitted pf job symbol) := by
  cases read with
  | error e => rfl
  | ok items =>
    refine congrArg Except.ok ((hresult items).trans ?_)
    rw [emitted, List.map_map]
    rfl

variable (pf job symbol) in
theorem normalize_liquidation (exchange : Exchange) (resp : ExchangeResponse) :
    (normalize pf exchange "liquidation" resp job symbol).map (·.liquidationEvents) =
      (liquidations exchange resp.body).map (emitted pf job symbol) := by
  cases exchange with
  | binance => exact liquidationEvents_of_read _ .binance _ fun _ => rfl
  | okx =>
    change (Okx.readEnvelope resp.body >>= _).map _ = (Okx.readEnvelope resp.body >>= _).map _
    cases Okx.readEnvelope resp.body with
    | error e => rfl
    | ok data => exact liquidationEvents_of_read (Okx.readLiquidations data) .okx _ fun _ => rfl
  | bybit => exact liquidationEvents_of_read _ .bybit _ fun _ => rfl
  | bitget => rfl
  | gate => exact liquidationEvents_of_read _ .gate _ fun _ => rfl
  | mexc => exact liquidationEvents_of_read _ .mexc _ fun _ => rfl

variable {exchange : Exchange} {resp : ExchangeResponse} {items : List Liquidation}

variable (pf job symbol) in
/-- Where the items can be read the adapter emits their events. -/
theorem normalize_of_liquidations (h : liquidations exchange resp.body = .ok items) :
    ∃ result, normalize pf exchange "liquidation" resp job symbol = .ok result ∧
      result.liquidationEvents = emitted pf job symbol items := by
  have hmap := normalize_liquidation pf job symbol exchange resp
  rw [h] at hmap
  exact map_eq_ok hmap

/-- Every event of a result is the event of an item. -/
theorem liquidations_of_normalize {dataType : String} {result : NormalizedResult}
    {event : NormalizedLiquidationEvent}
    (h : normalize pf exchange dataType resp job symbol = .ok result)
    (hevent : event ∈ result.liquidationEvents) :
    dataType = "liquidation" ∧ ∃ items, liquidations exchange resp.body = .ok items ∧
      event ∈ emitted pf job symbol items := by
  have htype : dataType = "liquidation" := by
    by_contra hne
    have hsilent := ((normalize_ends pf resp job symbol exchange dataType).2 hne).ok h
    rw [hsilent] at hevent
    cases hevent
  subst htype
  have hmap := normalize_liquidation pf job symbol exchange resp
  rw [h] at hmap
  obtain ⟨items, hitems, heq⟩ := map_eq_ok hmap.symm
  exact ⟨rfl, items, hitems, heq ▸ hevent⟩

end

/-! ## Storing what is kept -/

section
variable (pf : ParseFloat) (exchange : Exchange) (dataType : String) (resp : ExchangeResponse)
  (job : Job) (symbol : Symbol) (f : NormalizedLiquidationEvent → String) (now : ℤ)
  (cfg : ValidationConfig)

/-- The events of the result that the filter keeps satisfy the constraints of
    the table, and storing them does not fail. -/
def ConstraintsHold : Prop :=
  ∀ result, normalize pf exchange dataType resp job symbol = .ok result →
    (∀ event ∈ (filterLiquidationEvents f job now cfg result.liquidationEvents).1,
      eventConstraints event = true) ∧
    ∀ minUSD db, ∃ r, upsertLiquidationEvents minUSD
      (filterLiquidationEvents f job now cfg result.liquidationEvents).1 db = .ok r

/-- Every item of a response about liquidations that passes the checks has a
    side that the table admits. -/
def SidesAdmitted : Prop :=
  dataType = "liquidation" → ∀ items, liquidations exchange resp.body = .ok items →
    ∀ item ∈ items, item.Valid pf job symbol → item.eventTime ≤ now + futureSkew cfg →
      item.Storable

/-- **The constraints of the table**: they hold for the kept events exactly if
    the sides of the items are admitted. -/
theorem constraints_iff :
    ConstraintsHold pf exchange dataType resp job symbol f now cfg ↔
      SidesAdmitted pf exchange dataType resp job symbol now cfg := by
  constructor
  · rintro hhold rfl items hitems item hitem hvalid hfuture
    obtain ⟨result, hresult, hevents⟩ := normalize_of_liquidations pf job symbol hitems
    rw [← item.eventConstraints_iff pf job symbol]
    refine (hhold result hresult).1 _ (mem_keepValid.2 ⟨?_, item.check_iff.2 ⟨hvalid, hfuture⟩⟩)
    rw [hevents, ← item.withEventKey_event f]
    exact List.mem_map_of_mem (mem_emitted.2 ⟨item, hitem, hvalid, rfl⟩)
  · intro hsides result hresult
    have hkept : ∀ event ∈ (filterLiquidationEvents f job now cfg result.liquidationEvents).1,
        eventConstraints event = true := by
      intro event hevent
      obtain ⟨hmem, hcheck⟩ := mem_keepValid.1 hevent
      obtain ⟨event, hsource, rfl⟩ := List.mem_map.1 hmem
      obtain ⟨htype, items, hitems, hemitted⟩ := liquidations_of_normalize hresult hsource
      obtain ⟨item, hitem, hvalid, rfl⟩ := mem_emitted.1 hemitted
      rw [item.withEventKey_event] at hcheck ⊢
      rw [item.eventConstraints_iff]
      exact hsides htype items hitems item hitem hvalid (item.check_iff.1 hcheck).2
    refine ⟨hkept, fun minUSD db => ⟨_, upsertLiquidationEvents_eq (fun event hevent => ?_) db⟩⟩
    exact ⟨validate_of_mem_filter hevent, hkept event hevent⟩

end

/-! ### A liquidation that cannot be stored -/

/-- A liquidation order as binance returns it. -/
def forceOrder (price : String) : Json :=
  .obj [("symbol", .str "BTCUSDT"), ("price", .str price), ("origQty", .str "0.5"),
    ("executedQty", .str "0.5"), ("averagePrice", .str price), ("status", .str "FILLED"),
    ("time", .int 1700000000000), ("side", .str "SELL")]

/-- Its event is kept, with a side that the table does not admit. -/
theorem forceOrder_not_admitted :
    ¬ConstraintsHold parseDecimal .binance "liquidation"
      ⟨some (.arr [forceOrder "36500.1"]), unixMilli 1700000000000⟩
      (sampleJob "binance" "liquidation") ⟨1⟩ (·.eventKey) (unixMilli 1700000000000)
      defaultValidationConfig := by
  intro h
  refine absurd (fun result hresult => (h result hresult).1) ?_
  decide +kernel

end Aggregator.Exchanges
