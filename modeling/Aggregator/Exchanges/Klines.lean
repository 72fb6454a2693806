/-
  The times of the candles that the adapters emit.

  A candle should open before it closes, and be marked as closed only if it had
  closed when the response was captured.  The adapters of okx, bybit, bitget and
  gate set the close time to the open time; that of mexc adds a minute and that
  of binance takes it from the response, and both mark candles as closed without
  looking at the time of the response.

  `klinesSound_iff`: the responses of each exchange on which the candles are
  sound.
-/
import Aggregator.Exchanges.Normalize

namespace Aggregator.Exchanges

open Aggregator.Go Aggregator.Normalizers Aggregator.Scheduler

def KlineSound (capturedAt : ℤ) (k : NormalizedKline) : Prop :=
  k.openTime < k.closeTime ∧ (k.isClosed = true → k.closeTime ≤ capturedAt)

instance (capturedAt : ℤ) (k : NormalizedKline) : Decidable (KlineSound capturedAt k) :=
  inferInstanceAs (Decidable (_ ∧ _))

section
variable (pf : ParseFloat) (exchange : Exchange) (resp : ExchangeResponse) (job : Job)
  (symbol : Symbol)

/-- Every candle that is emitted for a response is sound. -/
def KlinesSound : Prop :=
  ∀ result, normalize pf exchange "kline" resp job symbol = .ok result →
    ∀ k ∈ result.klines, KlineSound resp.capturedAt k

instance : Decidable (KlinesSound pf exchange resp job symbol) :=
  inferInstanceAs (Decidable (∀ result, _ = Except.ok result → _))

/-- A candle with these times, prices and amounts passes the check of the
    adapters. -/
def Passes (times : List ℤ) (prices : List ℚ) (amounts : List (Option ℚ)) : Prop :=
  0 < symbol.id ∧ trimSpace job.sourceSymbol ≠ "" ∧ validatePeriod job.period = .ok () ∧
    (∀ t ∈ times, t ≠ 0) ∧ (∀ p ∈ prices, 0 ≤ p) ∧ ∀ a ∈ amounts, ∀ q ∈ a, 0 ≤ q

variable {pf exchange resp job symbol}

theorem validateKline_iff_passes {k : NormalizedKline} (name : String)
    (hsource : k.toSourceMeta = sourceMeta name job symbol) (hname : trimSpace name ≠ "")
    (hinterval : k.interval = job.period) :
    validateKline k = .ok () ↔ Passes job symbol [k.openTime, k.closeTime]
      [k.openPrice, k.highPrice, k.lowPrice, k.closePrice]
      [k.volume, k.quoteVolume, k.takerBuyVolume, k.takerBuyQuoteVolume] := by
  rw [validateKline_iff, hsource, hinterval, validateSource_iff]
  simp [Passes, sourceMeta, hname, and_assoc]

/-- The candles of a response that are emitted are those that pass. -/
theorem klinesSound_of_read {α ρ : Type} (read : Outcome α) (rows : α → List ρ)
    (kline : ρ → NormalizedKline)
    (h : normalize pf exchange "kline" resp job symbol = do
      let a ← read
      return { klines := emit validateKline ((rows a).map kline) }) :
    KlinesSound pf exchange resp job symbol ↔
      ∀ a, read = .ok a → ∀ row ∈ rows a, validateKline (kline row) = .ok () →
        KlineSound resp.capturedAt (kline row) := by
  unfold KlinesSound
  rw [h]
  constructor
  · intro hsound a ha row hrow hpass
    refine hsound { klines := emit validateKline ((rows a).map kline) } ?_ _ ?_
    · rw [ha]
      rfl
    · exact List.mem_filter.2 ⟨List.mem_map_of_mem hrow, isOk_iff.2 hpass⟩
  · intro hrows result hresult k hk
    obtain ⟨a, ha, hresult⟩ := bind_eq_ok hresult
    obtain rfl := Except.ok.inj hresult
    obtain ⟨hk, hpass⟩ := List.mem_filter.1 hk
    obtain ⟨row, hrow, rfl⟩ := List.mem_map.1 hk
    exact hrows a ha row hrow (isOk_iff.1 hpass)

theorem not_klineSound {capturedAt : ℤ} {k : NormalizedKline} (h : k.closeTime = k.openTime) :
    ¬KlineSound capturedAt k := by
  rintro ⟨hlt, -⟩
  rw [h] at hlt
  exact lt_irrefl _ hlt

/-- Where the close time is the open time, no candle may be emitted. -/
theorem klinesSound_of_closeTime {α ρ : Type} (read : Outcome α) (rows : α → List ρ)
    (kline : ρ → NormalizedKline) (hclose : ∀ row, (kline row).closeTime = (kline row).openTime)
    (h : normalize pf exchange "kline" resp job symbol = do
      let a ← read
      return { klines := emit validateKline ((rows a).map kline) }) :
    KlinesSound pf exchange resp job symbol ↔
      ∀ a, read = .ok a → ∀ row ∈ rows a, validateKline (kline row) ≠ .ok () := by
  rw [klinesSound_of_read read rows kline h]
  refine forall₄_congr fun a _ row _ => ?_
  exact imp_congr_right fun _ => iff_false_intro (not_klineSound (hclose row))

end

/-! ## The candles of each exchange -/

section
variable (pf : ParseFloat) (job : Job) (symbol : Symbol)

/-- The numbers at some places of a row of values. -/
def numbers (k : List Json) (places : List ℕ) : List ℚ :=
  places.map fun i => parseFloatSafe pf (elem k i)

def amounts (k : List Json) (places : List ℕ) : List (Option ℚ) :=
  places.map fun i => floatPtrSafe pf (elem k i)

def Binance.Passes (k : List Json) : Prop :=
  Exchanges.Passes job symbol [mustTime (millisToTime (elem k 0)), mustTime (millisToTime (elem k 6))]
    (numbers pf k [1, 2, 3, 4]) (amounts pf k [5, 7, 9, 10])

def Okx.Passes (k : List Json) : Prop :=
  Exchanges.Passes job symbol [mustTime (millisToTime (elem k 0))] (numbers pf k [1, 2, 3, 4])
    (amounts pf k [5, 7])

/-- The elements are texts. -/
def Bybit.Passes (k : List String) : Prop :=
  Exchanges.Passes job symbol [mustTime (millisToTime (elem (k.map .str) 0))]
    (numbers pf (k.map .str) [1, 2, 3, 4]) (amounts pf (k.map .str) [5, 6])

def Bitget.Passes (k : List Json) : Prop :=
  Exchanges.Passes job symbol [mustTime (millisToTime (elem k 0))] (numbers pf k [1, 2, 3, 4])
    (amounts pf k [5, 6])

def Gate.Passes (row : List Json) : Prop :=
  Exchanges.Passes job symbol [Gate.rowTime row] (numbers pf row [5, 3, 4, 2]) (amounts pf row [1])

def Mexc.Passes (candle : Mexc.Candle) : Prop :=
  Exchanges.Passes job symbol
    [unixSeconds candle.time, Mexc.closeTime (unixSeconds candle.time)]
    [candle.openPrice, candle.high, candle.low, candle.close] [some candle.vol]

variable {pf job symbol}

theorem Binance.validateKline_iff (k : List Json) :
    validateKline (Binance.kline pf job symbol k) = .ok () ↔ Binance.Passes pf job symbol k :=
  validateKline_iff_passes "binance" rfl (by decide) rfl

theorem Okx.validateKline_iff (k : List Json) :
    validateKline (Okx.kline pf job symbol k) = .ok () ↔ Okx.Passes pf job symbol k := by
  rw [validateKline_iff_passes "okx" rfl (by decide) rfl]
  simp [Okx.kline, Okx.Passes, Exchanges.Passes, numbers, amounts]

theorem Bybit.validateKline_iff {k : List String} (h : 7 ≤ k.length) :
    validateKline (Bybit.kline pf job symbol k) = .ok () ↔ Bybit.Passes pf job symbol k := by
  have helem : ∀ i < 7, elem (k.map .str) i = .str (k.getD i "") := by
    intro i hi
    have hik : i < k.length := by omega
    simp [elem, hik]
  rw [validateKline_iff_passes "bybit" rfl (by decide) rfl]
  simp [Bybit.kline, Bybit.Passes, Exchanges.Passes, numbers, amounts, helem]

theorem Bitget.validateKline_iff (k : List Json) :
    validateKline (Bitget.kline pf job symbol k) = .ok () ↔ Bitget.Passes pf job symbol k := by
  rw [validateKline_iff_passes "bitget" rfl (by decide) rfl]
  simp [Bitget.kline, Bitget.Passes, Exchanges.Passes, numbers, amounts]

theorem Gate.validateKline_iff (row : List Json) :
    validateKline (Gate.kline pf job symbol row) = .ok () ↔ Gate.Passes pf job symbol row := by
  rw [validateKline_iff_passes "gate" rfl (by decide) rfl]
  simp [Gate.kline, Gate.Passes, Exchanges.Passes, numbers, amounts]

theorem Mexc.validateKline_iff (candle : Mexc.Candle) :
    validateKline (Mexc.kline job symbol candle) = .ok () ↔ Mexc.Passes job symbol candle := by
  rw [validateKline_iff_passes "mexc" rfl (by decide) rfl]
  simp [Mexc.kline, Mexc.Passes, Exchanges.Passes]

end

/-- The candles in a response of an exchange are such that those that are
    emitted are sound. -/
def CandlesSound (pf : ParseFloat) (exchange : Exchange) (resp : ExchangeResponse) (job : Job)
    (symbol : Symbol) : Prop :=
  match exchange with
  | .binance => ∀ klines, Binance.readKlines resp.body = .ok klines → ∀ k ∈ klines,
      Binance.Passes pf job symbol k →
        mustTime (millisToTime (elem k 0)) < mustTime (millisToTime (elem k 6)) ∧
          (Binance.isClosed k → mustTime (millisToTime (elem k 6)) ≤ resp.capturedAt)
  | .okx => ∀ klines, Okx.readEnvelope resp.body >>= Okx.readKlines = .ok klines → ∀ k ∈ klines,
      ¬Okx.Passes pf job symbol k
  | .bybit => ∀ list, Bybit.readKlines resp.body = .ok list → ∀ k ∈ list, 7 ≤ k.length →
      ¬Bybit.Passes pf job symbol k
  | .bitget => ∀ klines, Bitget.readKlines resp.body = .ok klines → ∀ k ∈ klines,
      ¬Bitget.Passes pf job symbol k
  | .gate => ∀ rows, Gate.readKlines resp.body = .ok rows → ∀ row ∈ rows,
      ¬Gate.Passes pf job symbol row
  | .mexc => ∀ candles, Mexc.readKlines resp.body = .ok candles → ∀ candle ∈ candles,
      Mexc.Passes job symbol candle →
        wrap64 (candle.time + unixToInternal) < int64Max ∧
          Mexc.closeTime (unixSeconds candle.time) ≤ resp.capturedAt

/-- A minute is added unless the seconds are at the end of their range. -/
theorem lt_closeTime_iff (sec : ℤ) :
    unixSeconds sec < Mexc.closeTime (unixSeconds sec) ↔
      wrap64 (sec + unixToInternal) < int64Max := by
  have hmin : int64Min ≤ wrap64 (sec + unixToInternal) := by
    unfold wrap64
    omega
  have hmax : wrap64 (sec + unixToInternal) ≤ int64Max := by
    unfold wrap64 int64Min int64Max
    omega
  unfold Mexc.closeTime timeAdd unixSeconds
  generalize wrap64 (sec + unixToInternal) = s at hmin hmax
  have hdiv : (s * second + minute) / second = s + 60 := by
    unfold minute second
    omega
  have hmod : (s * second + minute) % second = 0 := by
    unfold minute second
    omega
  simp only [hdiv, hmod]
  unfold second int64Min int64Max at *
  split_ifs <;> omega

/-- **The times of candles**: the candles that are emitted for a response are
    sound exactly if the candles in the response are as in `CandlesSound`. -/
theorem klinesSound_iff (pf : ParseFloat) (exchange : Exchange) (resp : ExchangeResponse)
    (job : Job) (symbol : Symbol) :
    KlinesSound pf exchange resp job symbol ↔ CandlesSound pf exchange resp job symbol := by
  cases exchange with
  | binance =>
    refine (klinesSound_of_read (Binance.readKlines resp.body) id (Binance.kline pf job symbol)
      rfl).trans ?_
    exact forall₄_congr fun _ _ k _ => imp_congr_left (Binance.validateKline_iff k)
  | okx =>
    refine (klinesSound_of_closeTime (Okx.readEnvelope resp.body >>= Okx.readKlines) id
      (Okx.kline pf job symbol) (fun _ => rfl) (bind_assoc _ _ _).symm).trans ?_
    exact forall₄_congr fun _ _ k _ => (Okx.validateKline_iff k).not
  | bybit =>
    refine (klinesSound_of_closeTime (Bybit.readKlines resp.body)
      (fun list => list.filter fun k => 7 ≤ k.length) (Bybit.kline pf job symbol) (fun _ => rfl)
      rfl).trans ?_
    refine forall₂_congr fun list _ => ?_
    simp only [List.mem_filter, decide_eq_true_eq, and_imp]
    exact forall₃_congr fun k _ hlength => (Bybit.validateKline_iff hlength).not
  | bitget =>
    refine (klinesSound_of_closeTime (Bitget.readKlines resp.body) id (Bitget.kline pf job symbol)
      (fun _ => rfl) rfl).trans ?_
    exact forall₄_congr fun _ _ k _ => (Bitget.validateKline_iff k).not
  | gate =>
    refine (klinesSound_of_closeTime (Gate.readKlines resp.body) id (Gate.kline pf job symbol)
      (fun _ => rfl) rfl).trans ?_
    exact forall₄_congr fun _ _ row _ => (Gate.validateKline_iff row).not
  | mexc =>
    refine (klinesSound_of_read (Mexc.readKlines resp.body) id (Mexc.kline job symbol) rfl).trans ?_
    refine forall₄_congr fun _ _ candle _ => imp_congr (Mexc.validateKline_iff candle) ?_
    rw [← lt_closeTime_iff]
    exact and_congr_right fun _ => forall_prop_of_true rfl

/-! ### Candles that are not sound -/

/-- The candle of the minute that starts at 00:01, as binance returns it. -/
def binanceCandle : Json :=
  .arr [.int 60000, .str "100", .str "101", .str "99", .str "100", .str "7", .int 119999,
    .str "700", .int 3, .str "4", .str "400", .str "0"]

/-- The same candle, as bybit returns it. -/
def bybitCandles : Json :=
  .obj [("retCode", .int 0), ("result", .obj [("list", .arr [.arr [.str "60000", .str "100",
    .str "101", .str "99", .str "100", .str "7", .str "700"]])])]

/-- Half a minute into the candle binance marks it as closed; after it has
    closed bybit gives it the same open and close time. -/
theorem candle_not_sound :
    ¬KlinesSound parseDecimal .binance ⟨some (.arr [binanceCandle]), unixMilli 90000⟩
        (sampleJob "binance" "kline") ⟨1⟩ ∧
      ¬KlinesSound parseDecimal .bybit ⟨some bybitCandles, unixMilli 180000⟩
        (sampleJob "bybit" "kline") ⟨1⟩ := by
  decide +kernel

end Aggregator.Exchanges
