/-
  The symbols and their markets (`internal/symbols`).

  A row of `symbols` has its markets in a JSON column; a row whose markets do not
  decode makes the whole query fail.  `collate` is the order of texts of the
  database.  Of a symbol, only the columns that are read later are modelled.
-/
import Aggregator.Go.Decode
import Aggregator.Go.Strings
import Aggregator.Lib.Checks
import Aggregator.Lib.Table

namespace Aggregator.Symbols

open Aggregator.Go

structure MarketMapping where
  exchange : String := ""
  marketType : String := ""
  sourceSymbol : String := ""
  status : String := ""
deriving DecidableEq, Repr

namespace MarketMapping

def fields : List (StructField MarketMapping) :=
  [.string "exchange" exchange fun m v => { m with exchange := v },
   .string "market_type" marketType fun m v => { m with marketType := v },
   .string "source_symbol" sourceSymbol fun m v => { m with sourceSymbol := v },
   .string "status" status fun m v => { m with status := v }]

def isActive (m : MarketMapping) : Bool :=
  toLower (trimSpace m.status) ∈ ["active", "live", "normal", "trading"]

def normalizedExchange (m : MarketMapping) : String := toLower (trimSpace m.exchange)

end MarketMapping

def normalizeMarketStatus (status : String) : String := toLower (trimSpace status)

/-- `ParseMarketMappings`; `none` is SQL's `NULL`. -/
def parseMarketMappings (raw : Option Json) : Except String (List MarketMapping) :=
  match raw with
  | none => .ok []
  | some raw =>
    match raw.decodeSlice (Json.decodeStruct MarketMapping.fields {}) with
    | none => .error "parse symbols.markets: json"
    | some mappings => .ok (mappings.filterMap fun mapping =>
        let sourceSymbol := trimSpace mapping.sourceSymbol
        if sourceSymbol = "" then none
        else some
          { exchange := toLower (trimSpace mapping.exchange)
            marketType := trimSpace mapping.marketType
            sourceSymbol := sourceSymbol
            status := normalizeMarketStatus mapping.status })

/-- A row of `symbols`. -/
structure SymbolRow where
  id : ℤ
  symbol : String
  cmcRank : Option ℤ
  isActive : Bool
  markets : Option Json

abbrev SymbolTable := Table SymbolRow.id

structure Symbol where
  id : ℤ
  symbol : String
  markets : List MarketMapping
deriving DecidableEq, Repr

def scanSymbol (row : SymbolRow) : Except String Symbol :=
  (parseMarketMappings row.markets).map fun markets => ⟨row.id, row.symbol, markets⟩

section
variable (collate : String → String → Bool)

/-- `ORDER BY cmc_rank ASC NULLS LAST, symbol ASC`. -/
def rankLe (a b : SymbolRow) : Bool :=
  match a.cmcRank, b.cmcRank with
  | some m, some n => m < n || (m = n && collate a.symbol b.symbol)
  | some _, none => true
  | none, some _ => false
  | none, none => collate a.symbol b.symbol

/-- The rows of the active symbols, in that order. -/
def activeRows (table : SymbolTable) : List SymbolRow :=
  (table.rows.filter (·.isActive)).insertionSort fun a b => rankLe collate a b

def listActiveSymbols (table : SymbolTable) : Except String (List Symbol) :=
  (activeRows collate table).mapM scanSymbol

def listSymbolsByExchange (table : SymbolTable) (exchange : String) :
    Except String (List Symbol) :=
  let exchange := toLower (trimSpace exchange)
  if exchange = "" then .error "exchange is required"
  else (listActiveSymbols collate table).map fun active =>
    active.filterMap fun symbol =>
      let markets := symbol.markets.filter fun m => m.normalizedExchange = exchange && m.isActive
      if markets.isEmpty then none else some { symbol with markets := markets }

variable {collate : String → String → Bool} {table : SymbolTable}

theorem listActiveSymbols_ids {active : List Symbol} (h : listActiveSymbols collate table = .ok active) :
    active.map (·.id) = (activeRows collate table).map (·.id) := by
  refine map_of_mapM_ok ?_ h
  intro row symbol hscan
  obtain ⟨markets, -, rfl⟩ := map_eq_ok hscan
  rfl

theorem activeRows_ids_nodup (collate : String → String → Bool) (table : SymbolTable) :
    ((activeRows collate table).map (·.id)).Nodup := by
  have hperm := (List.perm_insertionSort (fun a b => rankLe collate a b = true)
    (table.rows.filter (·.isActive))).map (·.id)
  exact hperm.nodup_iff.2 (table.nodup.sublist (List.filter_sublist.map _))

end

end Aggregator.Symbols
