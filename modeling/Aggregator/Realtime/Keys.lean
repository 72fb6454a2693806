/-
  The keys of the realtime store (`internal/realtime/keys.go`).

  A latest value is kept under its kind, exchange and symbol, or under its symbol
  number if it is an aggregate.
-/
import Aggregator.Go.Strings
import Mathlib.Data.Int.Notation

namespace Aggregator.Realtime

open Aggregator.Go

def normalizeExchange (value : String) : String := toLower (trimSpace value)

def normalizeSourceSymbol (value : String) : String := toUpper (trimSpace value)

def normalizeStream (value : String) : String :=
  String.ofList ((toLower (trimSpace value)).toList.map fun c => if c = ' ' then '_' else c)

def kindMarket : String := "market"
def kindOpenInterest : String := "oi"
def kindFunding : String := "funding"
def kindOrderbookImbalance : String := "orderbook_imbalance"
def kindAggregate : String := "aggregate"

def latestExchangeSymbolKey (kind exchange sourceSymbol : String) : String :=
  ":".intercalate ["deriv", "latest", kind, normalizeExchange exchange,
    normalizeSourceSymbol sourceSymbol]

def latestMarketKey (exchange sourceSymbol : String) : String :=
  latestExchangeSymbolKey kindMarket exchange sourceSymbol

def latestOpenInterestKey (exchange sourceSymbol : String) : String :=
  latestExchangeSymbolKey kindOpenInterest exchange sourceSymbol

def latestFundingKey (exchange sourceSymbol : String) : String :=
  latestExchangeSymbolKey kindFunding exchange sourceSymbol

def latestOrderbookImbalanceKey (exchange sourceSymbol : String) : String :=
  latestExchangeSymbolKey kindOrderbookImbalance exchange sourceSymbol

def latestAggregateKey (symbolID : ℤ) : String := "deriv:latest:aggregate:" ++ toString symbolID

def collectorHealthKey (exchange dataType : String) : String :=
  ":".intercalate ["deriv", "collector", "health", normalizeExchange exchange,
    normalizeStream dataType]

def latestKey (kind exchange sourceSymbol : String) (symbolID : ℤ) : Except String String :=
  let name := toLower (trimSpace kind)
  if name = kindMarket then .ok (latestMarketKey exchange sourceSymbol)
  else if name = kindOpenInterest then .ok (latestOpenInterestKey exchange sourceSymbol)
  else if name = kindFunding then .ok (latestFundingKey exchange sourceSymbol)
  else if name = kindOrderbookImbalance then
    .ok (latestOrderbookImbalanceKey exchange sourceSymbol)
  else if name = kindAggregate then
    if symbolID ≤ 0 then .error "symbol_id is required for aggregate latest key"
    else .ok (latestAggregateKey symbolID)
  else .error s!"unsupported latest kind {kind.quote}"

end Aggregator.Realtime
