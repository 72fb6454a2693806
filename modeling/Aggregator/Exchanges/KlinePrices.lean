/-
  The prices of the candles that the adapters of binance, bybit and gate emit.

  These adapters read a candle from a row of values.  `parseFloatSafe` drops the
  error of `ParseFloat`, so that a field without a number becomes whatever
  `ParseFloat` returns beside the error, which is 0 for a field that is missing
  or empty; and the check of a candle asks only that no price is negative.

  * `normalize_eq_emitted`: the adapters emit candles row by row;
  * `pricesRead_iff`: the prices are those of the row, on the responses where each
    row that passes has four numbers;
  * `zero_price_emitted`: rows without one of the prices.
-/
import Aggregator.Exchanges.Klines

namespace Aggregator.Exchanges

open Aggregator.Go Aggregator.Normalizers Aggregator.Scheduler

/-- The number in a field, if there is one. -/
def number (pf : ParseFloat) (field : Json) : Option ℚ :=
  match parseFloat pf field with
  | (q, none) => some q
  | (_, some _) => none

def prices (k : NormalizedKline) : List ℚ := [k.openPrice, k.highPrice, k.lowPrice, k.closePrice]

/-! ## Adapters that read rows -/

inductive RowAdapter
  | binance | bybit | gate
deriving DecidableEq, Repr

namespace RowAdapter

def exchange : RowAdapter → Exchange
  | binance => .binance
  | bybit => .bybit
  | gate => .gate

/-- A row, as it is decoded: those of bybit are texts. -/
abbrev Row : RowAdapter → Type
  | binance => List Json
  | bybit => List String
  | gate => List Json

/-- The rows of a body; bybit and gate skip those that are too short. -/
def readRows : (adapter : RowAdapter) → Option Json → Outcome (List adapter.Row)
  | binance, body => Binance.readKlines body
  | bybit, body => do
    let list ← Bybit.readKlines body
    return list.filter fun k => 7 ≤ k.length
  | gate, body => Gate.readKlines body

/-- The fields with the open, high, low and close price.  A field that is missing
    in a row of binance is nil, and one that is null in a row of bybit is empty. -/
def priceFields : (adapter : RowAdapter) → adapter.Row → List Json
  | binance, k => [elem k 1, elem k 2, elem k 3, elem k 4]
  | bybit, k => [.str (k.getD 1 ""), .str (k.getD 2 ""), .str (k.getD 3 ""), .str (k.getD 4 "")]
  | gate, row => [elem row 5, elem row 3, elem row 4, elem row 2]

section
variable (pf : ParseFloat) (job : Job) (symbol : Symbol)

def kline : (adapter : RowAdapter) → adapter.Row → NormalizedKline
  | binance, k => Binance.kline pf job symbol k
  | bybit, k => Bybit.kline pf job symbol k
  | gate, row => Gate.kline pf job symbol row

/-- The body of the loop: the candle of a row, if it is emitted. -/
def emitted (adapter : RowAdapter) (row : adapter.Row) : Option NormalizedKline :=
  let kline := adapter.kline pf job symbol row
  if (validateKline kline).isOk then some kline else none

def Passes : (adapter : RowAdapter) → adapter.Row → Prop
  | binance, k => Binance.Passes pf job symbol k
  | bybit, k => Bybit.Passes pf job symbol k
  | gate, row => Gate.Passes pf job symbol row

/-- Every candle that is emitted for a row has the prices in the row. -/
def PricesRead (adapter : RowAdapter) (resp : ExchangeResponse) : Prop :=
  ∀ rows, adapter.readRows resp.body = .ok rows → ∀ row ∈ rows,
    ∀ k ∈ adapter.emitted pf job symbol row,
      (prices k).map some = (adapter.priceFields row).map (number pf)

instance (adapter : RowAdapter) (resp : ExchangeResponse) :
    Decidable (adapter.PricesRead pf job symbol resp) :=
  inferInstanceAs (Decidable (∀ rows, _ = Except.ok rows → _))

end

/-! ## Where the prices are read -/

section
variable {pf : ParseFloat} {job : Job} {symbol : Symbol} {adapter : RowAdapter}

/-- The candles of a response are those of its rows. -/
theorem normalize_eq_emitted (adapter : RowAdapter) (resp : ExchangeResponse) :
    normalize pf adapter.exchange "kline" resp job symbol = do
      let rows ← adapter.readRows resp.body
      return { klines := rows.filterMap (adapter.emitted pf job symbol) } := by
  have hemit : ∀ rows : List adapter.Row,
      emit validateKline (rows.map (adapter.kline pf job symbol)) =
        rows.filterMap (adapter.emitted pf job symbol) := by
    intro rows
    rw [emit, ← List.filterMap_eq_filter, List.filterMap_map]
    rfl
  simp only [← hemit]
  cases adapter with
  | binance => rfl
  | bybit =>
    change Bybit.normalizeKline pf resp job symbol = _
    rw [Bybit.normalizeKline, readRows, bind_assoc]
    rfl
  | gate => rfl

theorem prices_kline (row : adapter.Row) :
    prices (adapter.kline pf job symbol row) = (adapter.priceFields row).map (parseFloatSafe pf) := by
  cases adapter with
  | binance => simp only [prices, kline, Binance.kline, priceFields, List.map]
  | bybit => simp only [prices, kline, Bybit.kline, priceFields, List.map]
  | gate => simp only [prices, kline, Gate.kline, priceFields, List.map]

theorem validateKline_kline_iff {body : Option Json} {rows : List adapter.Row}
    (hread : adapter.readRows body = .ok rows) {row : adapter.Row} (hrow : row ∈ rows) :
    validateKline (adapter.kline pf job symbol row) = .ok () ↔ adapter.Passes pf job symbol row := by
  cases adapter with
  | binance => exact Binance.validateKline_iff row
  | bybit =>
    obtain ⟨list, -, hfilter⟩ := bind_eq_ok hread
    obtain rfl := Except.ok.inj hfilter
    exact Bybit.validateKline_iff (by simpa using (List.mem_filter.1 hrow).2)
  | gate => exact Gate.validateKline_iff row

/-- The value of a field without an error is its number. -/
theorem some_parseFloatSafe_iff (field : Json) :
    some (parseFloatSafe pf field) = number pf field ↔ number pf field ≠ none := by
  unfold parseFloatSafe number
  rcases parseFloat pf field with ⟨q, _ | e⟩ <;> simp

theorem pricesRead_row_iff {body : Option Json} {rows : List adapter.Row}
    (hread : adapter.readRows body = .ok rows) {row : adapter.Row} (hrow : row ∈ rows) :
    (∀ k ∈ adapter.emitted pf job symbol row,
      (prices k).map some = (adapter.priceFields row).map (number pf)) ↔
    (adapter.Passes pf job symbol row →
      ∀ field ∈ adapter.priceFields row, number pf field ≠ none) := by
  have hprices : (prices (adapter.kline pf job symbol row)).map some =
      (adapter.priceFields row).map (number pf) ↔
        ∀ field ∈ adapter.priceFields row, number pf field ≠ none := by
    rw [prices_kline, List.map_map, List.map_inj_left]
    exact forall₂_congr fun field _ => some_parseFloatSafe_iff field
  rw [← hprices, ← validateKline_kline_iff hread hrow, ← isOk_iff, emitted]
  by_cases hpass : (validateKline (adapter.kline pf job symbol row)).isOk = true
  · simp [hpass]
  · simp [hpass]

end

/-- **The prices of candles**: the candles of a response are emitted row by row,
    and all have the prices of their rows exactly if each row that passes has a
    number in its four fields. -/
theorem pricesRead_iff (pf : ParseFloat) (adapter : RowAdapter) (resp : ExchangeResponse)
    (job : Job) (symbol : Symbol) :
    normalize pf adapter.exchange "kline" resp job symbol = (do
      let rows ← adapter.readRows resp.body
      return { klines := rows.filterMap (adapter.emitted pf job symbol) }) ∧
    (adapter.PricesRead pf job symbol resp ↔
      ∀ rows, adapter.readRows resp.body = .ok rows → ∀ row ∈ rows,
        adapter.Passes pf job symbol row →
          ∀ field ∈ adapter.priceFields row, number pf field ≠ none) := by
  refine ⟨normalize_eq_emitted adapter resp, ?_⟩
  exact forall₄_congr fun rows hread row hrow => pricesRead_row_iff hread hrow

end RowAdapter

/-! ### Rows without a price -/

/-- The prices of the candles of a result. -/
def emittedPrices (m : Outcome NormalizedResult) : Option (List (List ℚ)) :=
  m.toOption.map fun result => result.klines.map prices

def binanceNoOpen : Json :=
  .arr [.arr [.int 60000, .null, .str "101", .str "99", .str "100", .str "7", .int 119999,
    .str "700", .int 3, .str "4", .str "400", .str "0"]]

def bybitNoLow : Json :=
  .obj [("retCode", .int 0), ("result", .obj [("list", .arr [.arr [.str "60000", .str "100",
    .str "101", .str "", .str "100", .str "7", .str "700"]])])]

def gateNoClose : Json :=
  .arr [.arr [.int 60, .str "7", .str "n/a", .str "101", .str "99", .str "100"]]

/-- A price that is null, empty or no number is emitted as 0. -/
theorem zero_price_emitted :
    emittedPrices (normalize parseDecimal .binance "kline" ⟨some binanceNoOpen, unixMilli 180000⟩
        (sampleJob "binance" "kline") ⟨1⟩) = some [[0, 101, 99, 100]] ∧
      ¬RowAdapter.binance.PricesRead parseDecimal (sampleJob "binance" "kline") ⟨1⟩
        ⟨some binanceNoOpen, unixMilli 180000⟩ ∧
      emittedPrices (normalize parseDecimal .bybit "kline" ⟨some bybitNoLow, unixMilli 180000⟩
        (sampleJob "bybit" "kline") ⟨1⟩) = some [[100, 101, 0, 100]] ∧
      ¬RowAdapter.bybit.PricesRead parseDecimal (sampleJob "bybit" "kline") ⟨1⟩
        ⟨some bybitNoLow, unixMilli 180000⟩ ∧
      emittedPrices (normalize parseDecimal .gate "kline" ⟨some gateNoClose, unixMilli 180000⟩
        (sampleJob "gate" "kline") ⟨1⟩) = some [[100, 101, 99, 0]] ∧
      ¬RowAdapter.gate.PricesRead parseDecimal (sampleJob "gate" "kline") ⟨1⟩
        ⟨some gateNoClose, unixMilli 180000⟩ := by
  decide +kernel

end Aggregator.Exchanges
