/-
  All adapters (`internal/exchanges/all`), and when `Normalize` panics.

  A panic is an index out of range or a nil dereference.  There are two places
  for one: the best prices of an order book are read from its first levels,
  which may be empty, and two adapters divide by the short ratio of a record
  without having looked at the long one.

  `normalize_noPanic_iff`: `Normalize` does not panic exactly on the bodies
  whose decoded order book (`BookSafe`) and ratios (`RatioSafe`) avoid that.
-/
import Aggregator.Exchanges.Binance
import Aggregator.Exchanges.Bitget
import Aggregator.Exchanges.Bybit
import Aggregator.Exchanges.Gate
import Aggregator.Exchanges.Mexc
import Aggregator.Exchanges.Okx
import Aggregator.Lib.Outcome

namespace Aggregator.Exchanges

open Aggregator.Go Aggregator.Normalizers Aggregator.Scheduler

inductive Exchange
  | binance | okx | bybit | bitget | gate | mexc
deriving DecidableEq, Repr

/-- `Adapter.Normalize` of the adapter that is registered for an exchange. -/
def normalize (pf : ParseFloat) (exchange : Exchange) (dataType : String) (resp : ExchangeResponse)
    (job : Job) (symbol : Symbol) : Outcome NormalizedResult :=
  match exchange with
  | .binance => Binance.normalize pf resp job symbol dataType
  | .okx => Okx.normalize pf resp job symbol dataType
  | .bybit => Bybit.normalize pf resp job symbol dataType
  | .bitget => Bitget.normalize pf resp job symbol dataType
  | .gate => Gate.normalize pf resp job symbol dataType
  | .mexc => Mexc.normalize pf resp job symbol dataType

/-! ## How a normalizer ends -/

section
variable {α : Type}

def NotPanic : Failure → Prop
  | .error _ => True
  | .panic _ => False

instance : DecidablePred NotPanic
  | .error _ => .isTrue trivial
  | .panic _ => .isFalse id

/-- The computation ends with a value or an error. -/
def NoPanic (m : Outcome α) : Prop := Ends (fun _ => True) NotPanic m

instance (m : Outcome α) : Decidable (NoPanic m) := inferInstanceAs (Decidable (Ends _ _ m))

/-- Its result has no liquidations. -/
def Silent (m : Outcome NormalizedResult) : Prop :=
  Ends (fun result => result.liquidationEvents = []) (fun _ => True) m

/-- Both. -/
def Quiet (m : Outcome NormalizedResult) : Prop :=
  Ends (fun result => result.liquidationEvents = []) NotPanic m

theorem Quiet.noPanic {m : Outcome NormalizedResult} (h : Quiet m) : NoPanic m :=
  h.mono (fun _ _ => trivial) fun _ h => h

theorem Quiet.silent {m : Outcome NormalizedResult} (h : Quiet m) : Silent m :=
  h.mono (fun _ h => h) fun _ _ => trivial

/-- What is read from a body, and a result made of it. -/
theorem NoPanic.quiet {read : Outcome α} (h : NoPanic read) {f : α → Outcome NormalizedResult}
    (hf : ∀ a, Quiet (f a)) : Quiet (read >>= f) :=
  Ends.bind h fun a _ => hf a

/-- A list that is read, of which only the first element counts. -/
theorem NoPanic.quiet_cases {read : Outcome (List α)} (h : NoPanic read)
    {f : List α → Outcome NormalizedResult} (hnil : Quiet (f []))
    (hcons : ∀ item items, Quiet (f (item :: items))) : Quiet (read >>= f) := by
  refine h.quiet fun items => ?_
  cases items with
  | nil => exact hnil
  | cons item items => exact hcons item items

theorem NoPanic.silent {read : Outcome α} (h : NoPanic read) {f : α → Outcome NormalizedResult}
    (hf : ∀ a, Silent (f a)) : Silent (read >>= f) :=
  Ends.bind (h.mono (fun _ h => h) fun _ _ => trivial) fun a _ => hf a

theorem noPanic_checked (m : Except String α) : NoPanic (checked m) := by
  cases m <;> trivial

theorem noPanic_unmarshal (raw : Option Json) (decode : Json → Option α) (context : String) :
    NoPanic (unmarshal raw decode context) := by
  unfold unmarshal
  split <;> trivial

theorem quiet_fail (text : String) : Quiet (fail text) := trivial

/-- After a computation that does not panic. -/
theorem noPanic_bind {β : Type} {m : Outcome α} {f : α → Outcome β} (hm : NoPanic m) :
    NoPanic (m >>= f) ↔ ∀ a, m = .ok a → NoPanic (f a) := by
  rw [NoPanic, ends_bind, ends_iff]
  exact and_iff_left (ends_iff.1 hm).2

end

/-! ## Order books and ratios -/

/-- Both sides are not empty only if their first levels are not. -/
def BookSafe {α : Type} (bids asks : List (List α)) : Prop :=
  bids ≠ [] → asks ≠ [] → bids.head? ≠ some [] ∧ asks.head? ≠ some []

/-- The long ratio is a number if the short one is, and is not zero. -/
def RatioSafe (pf : ParseFloat) (long short : String) : Prop :=
  ∀ s ∈ floatPtrSafe pf (.str short), s ≠ 0 → (floatPtrSafe pf (.str long)).isSome

theorem noPanic_bestPrice {α : Type} (price : α → ℚ) {levels : List (List α)} (h : levels ≠ []) :
    NoPanic (bestPrice price levels) ↔ levels.head? ≠ some [] := by
  cases levels with
  | nil => exact absurd rfl h
  | cons level levels =>
    cases level with
    | nil => exact iff_of_false id fun h => h rfl
    | cons p level => exact iff_of_true trivial nofun

/-- Reading a price fails in one way only. -/
theorem bestPrice_error {α : Type} {price : α → ℚ} {levels : List (List α)} {e : Failure}
    (h : bestPrice price levels = .error e) : ¬NotPanic e := by
  unfold bestPrice at h
  split at h <;> cases h
  exact id

theorem noPanic_bestPrices {α : Type} (price : α → ℚ) (bids asks : List (List α)) :
    NoPanic (bestPrices price bids asks) ↔ BookSafe bids asks := by
  unfold bestPrices BookSafe
  by_cases hb : bids = []
  · simp [hb, NoPanic]
  by_cases ha : asks = []
  · simp [ha, NoPanic]
  rw [if_pos ⟨hb, ha⟩, ← noPanic_bestPrice price hb, ← noPanic_bestPrice price ha]
  simp only [hb, ha, ne_eq, not_false_eq_true, forall_const, NoPanic, ends_bind, ends_pure]
  cases hbid : bestPrice price bids with
  | error e => simp [bestPrice_error hbid]
  | ok bid => simp

theorem noPanic_orderbookResult {α : Type} (price : α → ℚ) (exchange : String)
    (bids asks : List (List α)) (snapshotTime : ℤ) (job : Job) (symbol : Symbol) :
    NoPanic (orderbookResult price exchange bids asks snapshotTime job symbol) ↔
      BookSafe bids asks := by
  rw [← noPanic_bestPrices price, NoPanic, orderbookResult, ends_bind]
  refine ⟨fun h => h.mono (fun _ _ => trivial) fun _ h => h, fun h => ?_⟩
  exact h.mono (fun _ _ => (noPanic_checked _).bind fun _ _ => trivial) fun _ h => h

theorem silent_orderbookResult {α : Type} (price : α → ℚ) (exchange : String)
    (bids asks : List (List α)) (snapshotTime : ℤ) (job : Job) (symbol : Symbol) :
    Silent (orderbookResult price exchange bids asks snapshotTime job symbol) := by
  unfold orderbookResult
  refine Ends.bind (ends_iff.2 ⟨fun _ _ => trivial, fun _ _ => trivial⟩) fun _ _ => ?_
  exact (noPanic_checked _).silent fun _ => rfl

theorem noPanic_longShortUnchecked (long short : Option ℚ) :
    NoPanic (longShortUnchecked long short) ↔ ∀ s ∈ short, s ≠ 0 → long.isSome := by
  cases short with
  | none => simp [longShortUnchecked, NoPanic]
  | some s =>
    by_cases hs : s = 0
    · simp [longShortUnchecked, hs, NoPanic]
    · cases long with
      | none => simp [longShortUnchecked, hs, NoPanic, NotPanic]
      | some l => simp [longShortUnchecked, hs, NoPanic]

/-- The division fails in one way only. -/
theorem longShortUnchecked_error {long short : Option ℚ} {e : Failure}
    (h : longShortUnchecked long short = .error e) : ¬NotPanic e := by
  unfold longShortUnchecked at h
  split at h
  · cases h
  · split at h
    · split at h <;> cases h
      exact id
    · cases h

/-- The order book that is read from the body of a response. -/
def BooksSafe (exchange : Exchange) (body : Option Json) : Prop :=
  match exchange with
  | .binance => ∀ ob, Binance.readOrderbook body = .ok ob → BookSafe ob.bids ob.asks
  | .okx => ∀ data, Okx.readEnvelope body = .ok data →
      ∀ ob, Okx.readOrderbook data = .ok ob → BookSafe ob.bids ob.asks
  | .bybit => ∀ ob, Bybit.readOrderbook body = .ok ob → BookSafe ob.bids ob.asks
  | .bitget => ∀ ob, Bitget.readOrderbook body = .ok ob → BookSafe ob.bids ob.asks
  | .gate => ∀ ob, Gate.readOrderbook body = .ok ob → BookSafe ob.bids ob.asks
  | .mexc => ∀ ob, Mexc.readOrderbook body = .ok ob → BookSafe ob.bids ob.asks

/-- The long and short ratios that are read from the body of a response. -/
def RatiosSafe (pf : ParseFloat) (exchange : Exchange) (body : Option Json) : Prop :=
  match exchange with
  | .bybit => ∀ list, Bybit.readLongShortRatios body = .ok list →
      ∀ item ∈ list, RatioSafe pf item.buyRatio item.sellRatio
  | .bitget => ∀ items, Bitget.readLongShortRatios body = .ok items →
      ∀ item ∈ items, RatioSafe pf item.longRatio item.shortRatio
  | .binance | .okx | .gate | .mexc => True

/-- What is read from the body for a data type is safe. -/
def Safe (pf : ParseFloat) (exchange : Exchange) (dataType : String) (body : Option Json) : Prop :=
  (dataType = "orderbook" ∨ dataType = "orderbook_imbalance" → BooksSafe exchange body) ∧
    (dataType = "long_short_ratio" → RatiosSafe pf exchange body)

/-- A data type that is read in another way, or not at all. -/
theorem Safe.other {pf : ParseFloat} {exchange : Exchange} {dataType : String} {body : Option Json}
    (hbook : dataType ≠ "orderbook") (himbalance : dataType ≠ "orderbook_imbalance")
    (hratio : dataType = "long_short_ratio" → RatiosSafe pf exchange body) :
    Safe pf exchange dataType body := by
  refine ⟨?_, hratio⟩
  rintro (h | h)
  · exact absurd h hbook
  · exact absurd h himbalance

/-! ## The adapters -/

section
variable (pf : ParseFloat) (resp : ExchangeResponse) (job : Job) (symbol : Symbol)

theorem quiet_tickerResult (input : MarketSnapshotInput) :
    Quiet (tickerResult pf input resp job symbol) :=
  (noPanic_checked _).quiet fun _ => rfl

theorem quiet_openInterestResult (exchange : String) (snapshotTime : ℤ) (openInterest : ℚ) :
    Quiet (openInterestResult exchange snapshotTime openInterest job symbol) :=
  (noPanic_checked _).quiet fun _ => rfl

/-- Reading an order book. -/
theorem noPanic_book {α ρ : Type} {read : Outcome ρ} (hread : NoPanic read) (price : α → ℚ)
    (exchange : String) (bids asks : ρ → List (List α)) (time : ρ → ℤ) :
    NoPanic (do
        let ob ← read
        orderbookResult price exchange (bids ob) (asks ob) (time ob) job symbol) ↔
      ∀ ob, read = .ok ob → BookSafe (bids ob) (asks ob) := by
  rw [noPanic_bind hread]
  simp only [noPanic_orderbookResult]

/-- Reading ratios and dividing them. -/
theorem noPanic_ratios {ρ : Type} {read : Outcome (List ρ)} (hread : NoPanic read)
    {long short : ρ → String} {row : ρ → Option ℚ → NormalizedLongShortRatio}
    {ratio : ρ → Outcome NormalizedLongShortRatio}
    (hratio : ∀ item, ratio item = do
      let r ← longShortUnchecked (floatPtrSafe pf (.str (long item)))
        (floatPtrSafe pf (.str (short item)))
      return row item r) :
    NoPanic (do
        let items ← read
        let ratios ← items.mapM ratio
        return { longShortRatios := emit validateLongShortRatio ratios : NormalizedResult }) ↔
      ∀ items, read = .ok items → ∀ item ∈ items, RatioSafe pf (long item) (short item) := by
  rw [noPanic_bind hread]
  refine forall₂_congr fun items _ => ?_
  rw [NoPanic, ends_map, ends_mapM]
  · simp only [hratio, ends_map]
    exact forall₂_congr fun item _ => noPanic_longShortUnchecked _ _
  · intro item e he
    rw [hratio] at he
    cases hr : longShortUnchecked (floatPtrSafe pf (.str (long item)))
        (floatPtrSafe pf (.str (short item))) with
    | error e' =>
      rw [hr] at he
      obtain rfl := Except.error.inj he
      exact longShortUnchecked_error hr
    | ok r => rw [hr] at he; cases he

theorem silent_ratios {ρ : Type} {read : Outcome (List ρ)} (hread : NoPanic read)
    (ratio : ρ → Outcome NormalizedLongShortRatio) :
    Silent (do
        let items ← read
        let ratios ← items.mapM ratio
        return { longShortRatios := emit validateLongShortRatio ratios : NormalizedResult }) :=
  hread.silent fun _ => ends_map.2 (ends_iff.2 ⟨fun _ _ => rfl, fun _ _ => trivial⟩)

/-! ### Binance -/

theorem Binance.quiet_normalizeTicker : Quiet (Binance.normalizeTicker pf resp job symbol) := by
  unfold Binance.normalizeTicker
  split
  · exact trivial
  · exact (noPanic_unmarshal _ _ _).quiet fun _ => quiet_tickerResult _ _ _ _ _

/-- How `Normalize` ends: when it does not panic, and that it has liquidations
    only for their data type. -/
theorem Binance.normalize_ends (dataType : String) :
    (NoPanic (Binance.normalize pf resp job symbol dataType) ↔
      Safe pf .binance dataType resp.body) ∧
    (dataType ≠ "liquidation" → Silent (Binance.normalize pf resp job symbol dataType)) := by
  have hticker := Binance.quiet_normalizeTicker pf resp job symbol
  have hkline : Quiet (Binance.normalizeKline pf resp job symbol) :=
    (noPanic_unmarshal _ _ _).quiet fun _ => rfl
  have hoi : Quiet (Binance.normalizeOpenInterest pf resp job symbol) :=
    (noPanic_unmarshal _ _ _).quiet fun _ => quiet_openInterestResult _ _ _ _ _
  have hratio : Quiet (Binance.normalizeLongShortRatio pf resp job symbol) :=
    (noPanic_unmarshal _ _ _).quiet fun _ => rfl
  have hflow : Quiet (Binance.normalizeTakerFlow pf resp job symbol) :=
    (noPanic_unmarshal _ _ _).quiet fun _ => rfl
  have hbasis : Quiet (Binance.normalizeBasis pf resp job symbol) :=
    (noPanic_unmarshal _ _ _).quiet fun _ => rfl
  have hbook : NoPanic (Binance.normalizeOrderbook pf resp job symbol) ↔
      BooksSafe .binance resp.body := noPanic_book job symbol (noPanic_unmarshal _ _ _) _ _ _ _ _
  have hbook' : Silent (Binance.normalizeOrderbook pf resp job symbol) :=
    (noPanic_unmarshal _ _ _).silent fun _ => silent_orderbookResult _ _ _ _ _ _ _
  have hliq : NoPanic (Binance.normalizeLiquidation pf resp job symbol) :=
    ends_map.2 (noPanic_unmarshal _ _ _)
  unfold Binance.normalize
  split
  case h_13 hr _ _ hb hi _ =>
    exact ⟨iff_of_true trivial (Safe.other hb hi (absurd · hr)), fun _ => trivial⟩
  all_goals simp [Safe, RatiosSafe, Quiet.noPanic, Quiet.silent, *]

/-! ### Okx -/

theorem Okx.noPanic_readEnvelope (body : Option Json) : NoPanic (Okx.readEnvelope body) :=
  (noPanic_unmarshal _ _ _).bind fun _ _ => Ends.guard trivial (Ends.guard trivial trivial)

theorem Okx.noPanic_readOrderbook (data : Option Json) : NoPanic (Okx.readOrderbook data) := by
  refine (noPanic_unmarshal _ _ _).bind fun records _ => ?_
  cases records <;> trivial

theorem Okx.quiet_normalizeTicker (data : Option Json) :
    Quiet (Okx.normalizeTicker pf data resp job symbol) := by
  refine (noPanic_unmarshal _ _ _).quiet_cases (quiet_fail _) fun item records => ?_
  dsimp only
  -- what the time is does not matter
  generalize (millisToTime _).mapError _ = time
  exact (noPanic_checked time).quiet fun _ => quiet_tickerResult _ _ _ _ _

theorem Okx.quiet_normalizeOpenInterest (data : Option Json) :
    Quiet (Okx.normalizeOpenInterest pf data job symbol) :=
  (noPanic_unmarshal _ _ _).quiet_cases (quiet_fail _) fun _ _ =>
    quiet_openInterestResult _ _ _ _ _

theorem Okx.normalize_ends (dataType : String) :
    (NoPanic (Okx.normalize pf resp job symbol dataType) ↔ Safe pf .okx dataType resp.body) ∧
    (dataType ≠ "liquidation" → Silent (Okx.normalize pf resp job symbol dataType)) := by
  have hticker := Okx.quiet_normalizeTicker pf resp job symbol
  have hkline : ∀ data, Quiet (Okx.normalizeKline pf data job symbol) :=
    fun _ => (noPanic_unmarshal _ _ _).quiet fun _ => rfl
  have hoi := Okx.quiet_normalizeOpenInterest pf job symbol
  have hratio : ∀ data, Quiet (Okx.normalizeLongShortRatio pf data job symbol) :=
    fun _ => (noPanic_unmarshal _ _ _).quiet fun _ => rfl
  have hflow : ∀ data, Quiet (Okx.normalizeTakerFlow pf data job symbol) :=
    fun _ => (noPanic_unmarshal _ _ _).quiet fun _ => rfl
  have hbook : ∀ data, NoPanic (Okx.normalizeOrderbook pf data resp job symbol) ↔
      ∀ ob, Okx.readOrderbook data = .ok ob → BookSafe ob.bids ob.asks :=
    fun data => noPanic_book job symbol (Okx.noPanic_readOrderbook data) _ _ _ _ _
  have hbook' : ∀ data, Silent (Okx.normalizeOrderbook pf data resp job symbol) :=
    fun data => (Okx.noPanic_readOrderbook data).silent fun _ =>
      silent_orderbookResult _ _ _ _ _ _ _
  have hliq : ∀ data, NoPanic (Okx.normalizeLiquidation pf data resp job symbol) :=
    fun _ => ends_map.2 (noPanic_unmarshal _ _ _)
  have henv := Okx.noPanic_readEnvelope resp.body
  -- the envelope is read before the data type is looked at
  refine ⟨(noPanic_bind henv).trans ?_, fun htype => henv.silent fun data => ?_⟩
  · split
    case h_11 hr _ hb hi _ => exact iff_of_true (fun _ _ => trivial) (Safe.other hb hi (absurd · hr))
    all_goals simp [Safe, BooksSafe, RatiosSafe, Quiet.noPanic, *]
  · split
    case h_10 => exact absurd rfl htype
    case h_11 => exact trivial
    all_goals simp [Quiet.silent, *]

/-! ### Bybit -/

theorem Bybit.noPanic_parseBaseEnvelope (body : Option Json) :
    NoPanic (Bybit.parseBaseEnvelope body) :=
  (noPanic_unmarshal _ _ _).bind fun _ _ => Ends.guard trivial trivial

theorem Bybit.noPanic_readList {τ : Type} (fields : List (StructField τ)) (zero : τ)
    (result : Option Json) (context : String) :
    NoPanic (Bybit.readList fields zero result context) :=
  ends_map.2 (noPanic_unmarshal _ _ _)

theorem Bybit.quiet_normalizeTicker : Quiet (Bybit.normalizeTicker pf resp job symbol) := by
  refine (Bybit.noPanic_parseBaseEnvelope _).quiet fun env => ?_
  exact (Bybit.noPanic_readList _ _ _ _).quiet_cases (quiet_fail _) fun _ _ =>
    quiet_tickerResult _ _ _ _ _

theorem Bybit.quiet_normalizeOpenInterest :
    Quiet (Bybit.normalizeOpenInterest pf resp job symbol) := by
  refine (Bybit.noPanic_parseBaseEnvelope _).quiet fun env => ?_
  exact (Bybit.noPanic_readList _ _ _ _).quiet_cases rfl fun _ _ =>
    quiet_openInterestResult _ _ _ _ _

theorem Bybit.noPanic_readLongShortRatios (body : Option Json) :
    NoPanic (Bybit.readLongShortRatios body) :=
  (Bybit.noPanic_parseBaseEnvelope _).bind fun _ _ => Bybit.noPanic_readList _ _ _ _

theorem Bybit.noPanic_normalizeLongShortRatio :
    NoPanic (Bybit.normalizeLongShortRatio pf resp job symbol) ↔ RatiosSafe pf .bybit resp.body :=
  noPanic_ratios pf (Bybit.noPanic_readLongShortRatios _) fun _ => rfl

theorem Bybit.normalize_ends (dataType : String) :
    (NoPanic (Bybit.normalize pf resp job symbol dataType) ↔ Safe pf .bybit dataType resp.body) ∧
    (dataType ≠ "liquidation" → Silent (Bybit.normalize pf resp job symbol dataType)) := by
  have henv := Bybit.noPanic_parseBaseEnvelope resp.body
  have hticker := Bybit.quiet_normalizeTicker pf resp job symbol
  have hkline : Quiet (Bybit.normalizeKline pf resp job symbol) := by
    refine NoPanic.quiet (henv.bind fun _ _ => ?_) fun _ => rfl
    exact ends_map.2 (noPanic_unmarshal _ _ _)
  have hoi := Bybit.quiet_normalizeOpenInterest pf resp job symbol
  have hratio := Bybit.noPanic_normalizeLongShortRatio pf resp job symbol
  have hratio' : Silent (Bybit.normalizeLongShortRatio pf resp job symbol) :=
    silent_ratios (Bybit.noPanic_readLongShortRatios _) _
  have hread : NoPanic (Bybit.readOrderbook resp.body) :=
    henv.bind fun _ _ => noPanic_unmarshal _ _ _
  have hbook : NoPanic (Bybit.normalizeOrderbook pf resp job symbol) ↔
      BooksSafe .bybit resp.body := noPanic_book job symbol hread _ _ _ _ _
  have hbook' : Silent (Bybit.normalizeOrderbook pf resp job symbol) :=
    hread.silent fun _ => silent_orderbookResult _ _ _ _ _ _ _
  have hliq : NoPanic (Bybit.normalizeLiquidation pf resp job symbol) :=
    ends_map.2 (henv.bind fun _ _ => Bybit.noPanic_readList _ _ _ _)
  unfold Bybit.normalize
  split
  case h_11 hr hb hi _ =>
    exact ⟨iff_of_true trivial (Safe.other hb hi (absurd · hr)), fun _ => trivial⟩
  all_goals simp [Safe, Quiet.noPanic, Quiet.silent, *]

/-! ### Bitget -/

theorem Bitget.noPanic_readEnvelope (body : Option Json) : NoPanic (Bitget.readEnvelope body) :=
  (noPanic_unmarshal _ _ _).bind fun _ _ => Ends.guard trivial trivial

theorem Bitget.noPanic_firstTicker (raw : Option Json) : NoPanic (Bitget.firstTicker raw) := by
  unfold Bitget.firstTicker
  split
  · exact trivial
  · exact (noPanic_unmarshal _ _ _).bind fun _ _ => Ends.guard trivial trivial

theorem Bitget.noPanic_readOrderbook (body : Option Json) : NoPanic (Bitget.readOrderbook body) := by
  refine (Bitget.noPanic_readEnvelope _).bind fun payload _ => ?_
  refine (noPanic_unmarshal _ _ _).bind fun items _ => ?_
  cases items <;> trivial

theorem Bitget.quiet_normalizeOpenInterest :
    Quiet (Bitget.normalizeOpenInterest pf resp job symbol) := by
  refine (Bitget.noPanic_readEnvelope _).quiet fun payload => ?_
  exact (noPanic_unmarshal _ _ _).quiet_cases (quiet_fail _) fun _ _ =>
    quiet_openInterestResult _ _ _ _ _

theorem Bitget.noPanic_readLongShortRatios (body : Option Json) :
    NoPanic (Bitget.readLongShortRatios body) :=
  (Bitget.noPanic_readEnvelope _).bind fun _ _ => noPanic_unmarshal _ _ _

theorem Bitget.noPanic_normalizeLongShortRatio :
    NoPanic (Bitget.normalizeLongShortRatio pf resp job symbol) ↔
      RatiosSafe pf .bitget resp.body :=
  noPanic_ratios pf (Bitget.noPanic_readLongShortRatios _) fun _ => rfl

theorem Bitget.normalize_ends (dataType : String) :
    (NoPanic (Bitget.normalize pf resp job symbol dataType) ↔
      Safe pf .bitget dataType resp.body) ∧
    (dataType ≠ "liquidation" → Silent (Bitget.normalize pf resp job symbol dataType)) := by
  have henv := Bitget.noPanic_readEnvelope resp.body
  have hticker : Quiet (Bitget.normalizeTicker pf resp job symbol) :=
    henv.quiet fun _ => (Bitget.noPanic_firstTicker _).quiet fun _ => quiet_tickerResult _ _ _ _ _
  have hkline : Quiet (Bitget.normalizeKline pf resp job symbol) :=
    NoPanic.quiet (henv.bind fun _ _ => noPanic_unmarshal _ _ _) fun _ => rfl
  have hoi := Bitget.quiet_normalizeOpenInterest pf resp job symbol
  have hratio := Bitget.noPanic_normalizeLongShortRatio pf resp job symbol
  have hratio' : Silent (Bitget.normalizeLongShortRatio pf resp job symbol) :=
    silent_ratios (Bitget.noPanic_readLongShortRatios _) _
  have hread := Bitget.noPanic_readOrderbook resp.body
  have hbook : NoPanic (Bitget.normalizeOrderbook pf resp job symbol) ↔
      BooksSafe .bitget resp.body := noPanic_book job symbol hread _ _ _ _ _
  have hbook' : Silent (Bitget.normalizeOrderbook pf resp job symbol) :=
    hread.silent fun _ => silent_orderbookResult _ _ _ _ _ _ _
  unfold Bitget.normalize
  split
  case h_10 hr hb hi =>
    exact ⟨iff_of_true trivial (Safe.other hb hi (absurd · hr)), fun _ => trivial⟩
  all_goals simp [Safe, Quiet.noPanic, Quiet.silent, *]

/-! ### Gate -/

theorem Gate.quiet_normalizeTicker : Quiet (Gate.normalizeTicker pf resp job symbol) := by
  unfold Gate.normalizeTicker
  split
  · refine Ends.guard trivial ?_
    exact (noPanic_unmarshal _ _ _).quiet_cases (quiet_fail _) fun _ _ =>
      quiet_tickerResult _ _ _ _ _
  · exact (noPanic_unmarshal _ _ _).quiet_cases (quiet_fail _) fun _ _ =>
      quiet_tickerResult _ _ _ _ _

theorem Gate.normalize_ends (dataType : String) :
    (NoPanic (Gate.normalize pf resp job symbol dataType) ↔ Safe pf .gate dataType resp.body) ∧
    (dataType ≠ "liquidation" → Silent (Gate.normalize pf resp job symbol dataType)) := by
  have hrows : ∀ n context, NoPanic (Gate.readRows resp.body n context) :=
    fun _ _ => ends_map.2 (noPanic_unmarshal _ _ _)
  have hticker := Gate.quiet_normalizeTicker pf resp job symbol
  have hkline : Quiet (Gate.normalizeKline pf resp job symbol) := (hrows _ _).quiet fun _ => rfl
  have hoi : Quiet (Gate.normalizeOpenInterest pf resp job symbol) :=
    (hrows _ _).quiet fun _ => rfl
  have hratio : Quiet (Gate.normalizeLongShortRatio pf resp job symbol) :=
    (hrows _ _).quiet fun _ => rfl
  have hflow : Quiet (Gate.normalizeTakerFlow pf resp job symbol) :=
    (hrows _ _).quiet fun _ => rfl
  have hbook : NoPanic (Gate.normalizeOrderbook pf resp job symbol) ↔
      BooksSafe .gate resp.body := noPanic_book job symbol (noPanic_unmarshal _ _ _) _ _ _ _ _
  have hbook' : Silent (Gate.normalizeOrderbook pf resp job symbol) :=
    (noPanic_unmarshal _ _ _).silent fun _ => silent_orderbookResult _ _ _ _ _ _ _
  have hliq : NoPanic (Gate.normalizeLiquidation pf resp job symbol) :=
    ends_map.2 (noPanic_unmarshal _ _ _)
  have hbasis : Quiet (Gate.normalizeBasis pf resp job symbol) := (hrows _ _).quiet fun _ => rfl
  unfold Gate.normalize
  split
  case h_13 hr _ hb hi _ _ =>
    exact ⟨iff_of_true trivial (Safe.other hb hi (absurd · hr)), fun _ => trivial⟩
  all_goals simp [Safe, RatiosSafe, Quiet.noPanic, Quiet.silent, *]

/-! ### Mexc -/

theorem Mexc.noPanic_readEnvelope (body : Option Json) : NoPanic (Mexc.readEnvelope body) :=
  (noPanic_unmarshal _ _ _).bind fun _ _ => Ends.guard trivial trivial

theorem Mexc.noPanic_firstTicker (raw : Option Json) : NoPanic (Mexc.firstTicker raw) := by
  unfold Mexc.firstTicker
  split
  · exact trivial
  · exact (noPanic_unmarshal _ _ _).bind fun _ _ => Ends.guard trivial trivial

theorem Mexc.normalize_ends (dataType : String) :
    (NoPanic (Mexc.normalize pf resp job symbol dataType) ↔ Safe pf .mexc dataType resp.body) ∧
    (dataType ≠ "liquidation" → Silent (Mexc.normalize pf resp job symbol dataType)) := by
  have henv := Mexc.noPanic_readEnvelope resp.body
  have hticker : Quiet (Mexc.normalizeTicker pf resp job symbol) :=
    henv.quiet fun _ => (Mexc.noPanic_firstTicker _).quiet fun _ => quiet_tickerResult _ _ _ _ _
  have hoi : Quiet (Mexc.normalizeOpenInterest resp job symbol) :=
    henv.quiet fun _ => (Mexc.noPanic_firstTicker _).quiet fun _ =>
      quiet_openInterestResult _ _ _ _ _
  have hkline : Quiet (Mexc.normalizeKline resp job symbol) := by
    refine NoPanic.quiet (henv.bind fun _ _ => ?_) fun _ => rfl
    exact ends_map.2 (noPanic_unmarshal _ _ _)
  have hread : NoPanic (Mexc.readOrderbook resp.body) :=
    henv.bind fun _ _ => noPanic_unmarshal _ _ _
  have hbook : NoPanic (Mexc.normalizeOrderbook resp job symbol) ↔ BooksSafe .mexc resp.body :=
    noPanic_book job symbol hread _ _ _ _ _
  have hbook' : Silent (Mexc.normalizeOrderbook resp job symbol) :=
    hread.silent fun _ => silent_orderbookResult _ _ _ _ _ _ _
  have hliq : NoPanic (Mexc.normalizeLiquidation resp job symbol) :=
    ends_map.2 (henv.bind fun _ _ => ends_map.2 (noPanic_unmarshal _ _ _))
  unfold Mexc.normalize
  split
  case h_10 hb hi _ =>
    exact ⟨iff_of_true trivial (Safe.other hb hi fun _ => trivial), fun _ => trivial⟩
  all_goals simp [Safe, RatiosSafe, Quiet.noPanic, Quiet.silent, *]

/-! ### All adapters -/

theorem normalize_ends (exchange : Exchange) (dataType : String) :
    (NoPanic (normalize pf exchange dataType resp job symbol) ↔
      Safe pf exchange dataType resp.body) ∧
    (dataType ≠ "liquidation" → Silent (normalize pf exchange dataType resp job symbol)) :=
  match exchange with
  | .binance => Binance.normalize_ends pf resp job symbol dataType
  | .okx => Okx.normalize_ends pf resp job symbol dataType
  | .bybit => Bybit.normalize_ends pf resp job symbol dataType
  | .bitget => Bitget.normalize_ends pf resp job symbol dataType
  | .gate => Gate.normalize_ends pf resp job symbol dataType
  | .mexc => Mexc.normalize_ends pf resp job symbol dataType

/-- **When `Normalize` panics**: for no exchange, data type, job and symbol on a
    body whose order book and ratios are safe, and always on another one. -/
theorem normalize_noPanic_iff (exchange : Exchange) (dataType : String) :
    NoPanic (normalize pf exchange dataType resp job symbol) ↔
      Safe pf exchange dataType resp.body :=
  (normalize_ends pf resp job symbol exchange dataType).1

end

/-! ### Two bodies on which `Normalize` panics -/

/-- A job for the data type of a response. -/
def sampleJob (exchange dataType : String) : Job :=
  Job.planned 1 exchange dataType "tier1" 1 "BTCUSDT" "1m" 1 3 (.obj []) 0

/-- A bid without a price. -/
def emptyLevelBody : Json :=
  .obj [("lastUpdateId", .int 1), ("bids", .arr [.arr []]),
    ("asks", .arr [.arr [.str "100", .str "1"]])]

/-- A record with a sell ratio and no buy ratio. -/
def missingRatioBody : Json :=
  .obj [("retCode", .int 0), ("result", .obj [("list", .arr [.obj [("symbol", .str "BTCUSDT"),
    ("buyRatio", .str ""), ("sellRatio", .str "0.5"), ("timestamp", .str "1700000000000")]])])]

theorem normalize_panics :
    ¬NoPanic (normalize parseDecimal .binance "orderbook" ⟨some emptyLevelBody, unixMilli 0⟩
        (sampleJob "binance" "orderbook") ⟨1⟩) ∧
      ¬NoPanic (normalize parseDecimal .bybit "long_short_ratio"
        ⟨some missingRatioBody, unixMilli 0⟩ (sampleJob "bybit" "long_short_ratio") ⟨1⟩) := by
  decide +kernel

end Aggregator.Exchanges
