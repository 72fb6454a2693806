/-
  The normalized rows of flows, cumulative volume deltas and liquidations, and
  their checks (`internal/normalizers/models.go`, `validation.go`).

  A check returns the text of the first error.  `ValidateLiquidationAggregate`
  ranges over a Go map, whose order is unspecified; the model takes the order in
  which the source lists the entries.
-/
import Aggregator.Go.Strings
import Aggregator.Go.Time
import Aggregator.Lib.Checks

namespace Aggregator.Normalizers

open Aggregator.Go

structure SourceMeta where
  symbolID : ℤ
  exchange : String
  sourceSymbol : String
deriving DecidableEq, Repr

structure NormalizedTakerFlow extends SourceMeta where
  period : String
  snapshotTime : ℤ
  takerBuyVolume : Option ℚ
  takerSellVolume : Option ℚ
  takerBuyQuoteVolume : Option ℚ
  takerSellQuoteVolume : Option ℚ
  buySellDelta : Option ℚ
  buySellDeltaQuote : Option ℚ
  buySellRatio : Option ℚ
deriving DecidableEq, Repr

structure NormalizedCVD extends SourceMeta where
  period : String
  snapshotTime : ℤ
  cvdValue : Option ℚ
  cvdDelta : Option ℚ
  cvdChange : Option ℚ
  cvdChangePercent : Option ℚ
  buyVolume : Option ℚ
  sellVolume : Option ℚ
deriving DecidableEq, Repr

structure NormalizedLiquidationEvent extends SourceMeta where
  eventKey : String
  eventTime : ℤ
  side : String
  price : Option ℚ
  quantity : Option ℚ
  notional : Option ℚ
  usdValue : Option ℚ
  orderID : String
  tradeID : String
deriving DecidableEq, Repr

structure NormalizedLiquidationAggregate extends SourceMeta where
  period : String
  bucketTime : ℤ
  longLiquidationCount : ℤ
  shortLiquidationCount : ℤ
  longLiquidationNotional : ℚ
  shortLiquidationNotional : ℚ
  totalLiquidationNotional : ℚ
  longLiquidationUSD : ℚ
  shortLiquidationUSD : ℚ
  totalLiquidationUSD : ℚ
  largestLiquidationUSD : ℚ
deriving DecidableEq, Repr

def validateSource (source : SourceMeta) : Except String Unit :=
  if source.symbolID ≤ 0 then .error "missing symbol_id"
  else if trimSpace source.exchange = "" then .error "missing exchange"
  else if trimSpace source.sourceSymbol = "" then .error "missing source_symbol"
  else .ok ()

def validateTimestamp (name : String) (value : ℤ) : Except String Unit :=
  if isZero value then .error s!"missing {name}" else .ok ()

def validateNonNegative (name : String) (value : ℚ) : Except String Unit :=
  if value < 0 then .error s!"{name} must be non-negative" else .ok ()

def validateOptionalNonNegative (name : String) (value : Option ℚ) : Except String Unit :=
  match value with
  | none => .ok ()
  | some value => validateNonNegative name value

/-- One or more digits. -/
def isNumber (cs : List Char) : Bool := cs ≠ [] && cs.all Char.isDigit

/-- A number and a unit, or the name of a unit and a number. -/
def periodPattern (period : String) : Bool :=
  let cs := period.toList
  (match cs.reverse with
    | unit :: digits => unit ∈ ['s', 'm', 'h', 'd', 'w', 'M'] && isNumber digits
    | [] => false) ||
  ["Min", "Hour", "Day", "Week", "Month"].any fun name =>
    name.toList.isPrefixOf cs && isNumber (cs.drop name.length)

def validatePeriod (period : String) : Except String Unit :=
  let period := trimSpace period
  if period = "" then .ok ()
  else if !periodPattern period then .error s!"malformed period {period.quote}"
  else .ok ()

def validateCVD (item : NormalizedCVD) : Except String Unit := do
  validateSource item.toSourceMeta
  validateTimestamp "snapshot_time" item.snapshotTime
  validatePeriod item.period

def validateLiquidationEvent (item : NormalizedLiquidationEvent) : Except String Unit := do
  validateSource item.toSourceMeta
  if trimSpace item.eventKey = "" then .error "missing event_key"
  validateTimestamp "event_time" item.eventTime
  if trimSpace item.side = "" then .error "missing liquidation side"
  validateOptionalNonNegative "price" item.price
  validateOptionalNonNegative "quantity" item.quantity
  validateOptionalNonNegative "notional" item.notional
  validateOptionalNonNegative "usd_value" item.usdValue

def validateLiquidationAggregate (item : NormalizedLiquidationAggregate) : Except String Unit := do
  validateSource item.toSourceMeta
  validateTimestamp "bucket_time" item.bucketTime
  validatePeriod item.period
  [("long_liquidation_notional", item.longLiquidationNotional),
   ("short_liquidation_notional", item.shortLiquidationNotional),
   ("total_liquidation_notional", item.totalLiquidationNotional),
   ("long_liquidation_usd", item.longLiquidationUSD),
   ("short_liquidation_usd", item.shortLiquidationUSD),
   ("total_liquidation_usd", item.totalLiquidationUSD),
   ("largest_liquidation_usd", item.largestLiquidationUSD)].forM fun (name, value) =>
    validateNonNegative name value

/-! ## What passes -/

theorem validateNonNegative_iff {name : String} {value : ℚ} :
    validateNonNegative name value = .ok () ↔ 0 ≤ value := by
  exact ite_eq_ok.trans not_lt

theorem validateOptionalNonNegative_iff {name : String} {value : Option ℚ} :
    validateOptionalNonNegative name value = .ok () ↔ ∀ q ∈ value, 0 ≤ q := by
  cases value with
  | none => exact iff_of_true rfl nofun
  | some value =>
    rw [validateOptionalNonNegative, validateNonNegative_iff]
    simp

theorem validateTimestamp_iff {name : String} {value : ℤ} :
    validateTimestamp name value = .ok () ↔ value ≠ 0 := by
  rw [validateTimestamp, ite_eq_ok]
  simp [isZero]

theorem validateSource_iff {source : SourceMeta} :
    validateSource source = .ok () ↔ 0 < source.symbolID ∧ trimSpace source.exchange ≠ "" ∧
      trimSpace source.sourceSymbol ≠ "" := by
  unfold validateSource
  split_ifs <;> simp_all

theorem validateCVD_iff {item : NormalizedCVD} :
    validateCVD item = .ok () ↔ validateSource item.toSourceMeta = .ok () ∧
      item.snapshotTime ≠ 0 ∧ validatePeriod item.period = .ok () := by
  rw [validateCVD, check_eq_ok, check_eq_ok, validateTimestamp_iff]

theorem validateLiquidationEvent_iff {item : NormalizedLiquidationEvent} :
    validateLiquidationEvent item = .ok () ↔
      validateSource item.toSourceMeta = .ok () ∧ trimSpace item.eventKey ≠ "" ∧
      item.eventTime ≠ 0 ∧ trimSpace item.side ≠ "" ∧
      (∀ q ∈ item.price, 0 ≤ q) ∧ (∀ q ∈ item.quantity, 0 ≤ q) ∧
      (∀ q ∈ item.notional, 0 ≤ q) ∧ ∀ q ∈ item.usdValue, 0 ≤ q := by
  unfold validateLiquidationEvent
  rw [check_eq_ok, guard_eq_ok, check_eq_ok, guard_eq_ok, check_eq_ok, check_eq_ok, check_eq_ok,
    validateTimestamp_iff, validateOptionalNonNegative_iff, validateOptionalNonNegative_iff,
    validateOptionalNonNegative_iff, validateOptionalNonNegative_iff]

theorem validateLiquidationAggregate_ok {item : NormalizedLiquidationAggregate}
    (hsource : validateSource item.toSourceMeta = .ok ()) (htime : item.bucketTime ≠ 0)
    (hperiod : validatePeriod item.period = .ok ())
    (hnotional : 0 ≤ item.longLiquidationNotional ∧ 0 ≤ item.shortLiquidationNotional ∧
      0 ≤ item.totalLiquidationNotional)
    (husd : 0 ≤ item.longLiquidationUSD ∧ 0 ≤ item.shortLiquidationUSD ∧
      0 ≤ item.totalLiquidationUSD ∧ 0 ≤ item.largestLiquidationUSD) :
    validateLiquidationAggregate item = .ok () := by
  have ht : validateTimestamp "bucket_time" item.bucketTime = .ok () :=
    validateTimestamp_iff.2 htime
  obtain ⟨hln, hsn, htn⟩ := hnotional
  obtain ⟨hl, hs, ht', hm⟩ := husd
  rw [validateLiquidationAggregate, hsource, ht, hperiod]
  simp only [List.forM, validateNonNegative_iff.2 hln, validateNonNegative_iff.2 hsn,
    validateNonNegative_iff.2 htn, validateNonNegative_iff.2 hl, validateNonNegative_iff.2 hs,
    validateNonNegative_iff.2 ht', validateNonNegative_iff.2 hm]
  rfl

/-- The period and the time of an aggregate that passes. -/
theorem validateLiquidationAggregate_time {item : NormalizedLiquidationAggregate}
    (h : validateLiquidationAggregate item = .ok ()) :
    item.bucketTime ≠ 0 ∧ validatePeriod item.period = .ok () := by
  rw [validateLiquidationAggregate, check_eq_ok, check_eq_ok, check_eq_ok,
    validateTimestamp_iff] at h
  exact ⟨h.2.1, h.2.2.1⟩

/-! ## Series -/

/-- The columns that the rows of one series of snapshots or buckets share. -/
structure Series where
  symbolID : ℤ
  exchange : String
  period : String
deriving DecidableEq, Repr

/-- A series whose rows pass the checks here and the constraint of the tables. -/
def Series.Valid (s : Series) : Prop :=
  0 < s.symbolID ∧ trimSpace s.exchange ≠ "" ∧ validatePeriod s.period = .ok () ∧
    s.exchange = toLower s.exchange

theorem Series.Valid.validateSource {s : Series} (hs : s.Valid) {source : SourceMeta}
    (hid : source.symbolID = s.symbolID) (hex : source.exchange = s.exchange)
    (hsym : trimSpace source.sourceSymbol ≠ "") : validateSource source = .ok () := by
  rw [validateSource_iff, hid, hex]
  exact ⟨hs.1, hs.2.1, hsym⟩

end Aggregator.Normalizers
