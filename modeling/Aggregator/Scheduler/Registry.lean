/-
  The stores of the planner as the database answers them
  (`internal/scheduler/repository.go`, `internal/endpoints/repository.go`).

  * `listSymbolMarketsByTier_top100`: the markets of the tier `top100` are the
    first usable markets of the active symbols, in the order of their ranks, up to
    the limit.
-/
import Aggregator.Scheduler.PlannedJobs
import Aggregator.Symbols.Repository

namespace Aggregator.Scheduler

open Aggregator.Go Aggregator.Symbols

/-- A row of `exchange_api_endpoints`. -/
structure EndpointRow extends Endpoint where
  exchange : String
  marketType : String
  dataType : String
  isActive : Bool
deriving DecidableEq, Repr

abbrev EndpointTable := Table fun row : EndpointRow => row.id

/-- Texts in the order of their bytes, the collation `C`. -/
def byteOrder (a b : String) : Bool := a ≤ b

section
variable (collate : String → String → Bool)

/-- `ORDER BY market_type ASC, name ASC`. -/
def endpointLe (a b : EndpointRow) : Bool :=
  if a.marketType = b.marketType then collate a.name b.name else collate a.marketType b.marketType

/-- The active endpoints of an exchange and a data type. -/
def activeEndpoints (endpoints : EndpointTable) (exchange dataType : String) : List EndpointRow :=
  (endpoints.rows.filter fun row => row.exchange = exchange && row.dataType = dataType &&
    row.isActive).insertionSort fun a b => endpointLe collate a b

/-- `ListActiveByExchangeDataType`; no row leaves the slice nil. -/
def listActiveByExchangeDataType (endpoints : EndpointTable) (exchange dataType : String) :
    Except String (Slice Endpoint) :=
  let exchange := toLower (trimSpace exchange)
  let dataType := trimSpace dataType
  if exchange = "" ∨ dataType = "" then .error "exchange and data_type are required"
  else
    let rows := (activeEndpoints collate endpoints exchange dataType).map (·.toEndpoint)
    .ok (if rows.isEmpty then none else some rows)

/-- A market that is taken for a symbol. -/
def usable (exchange : String) (m : MarketMapping) : Bool :=
  m.isActive && m.normalizedExchange = exchange && trimSpace m.sourceSymbol ≠ ""

/-- The first usable market of a symbol. -/
def firstMarket (exchange : String) (symbol : Symbol) : Option SymbolMarket :=
  (symbol.markets.find? (usable exchange)).map fun m => ⟨symbol.id, trimSpace m.sourceSymbol⟩

/-- The loop over symbols, which ends at the limit. -/
def collectMarkets (exchange : String) (limit : ℤ) :
    List Symbol → List SymbolMarket → List SymbolMarket
  | [], result => result
  | symbol :: rest, result =>
    let result := result ++ (firstMarket exchange symbol).toList
    if 0 < limit ∧ limit ≤ result.length then result
    else collectMarkets exchange limit rest result

/-- `filterSymbolsByID`. -/
def filterSymbolsByID (input : List Symbol) (ids : List ℤ) : List Symbol :=
  input.filter fun symbol => symbol.id ∈ ids

/-- `ListSymbolMarketsByTier`; `watchlist` has the symbols of the watchlist tier. -/
def listSymbolMarketsByTier (symbols : SymbolTable) (watchlist : List ℤ) (tier exchange : String)
    (limit : ℤ) : Except String (Slice SymbolMarket) :=
  let tier := toLower (trimSpace tier)
  let exchange := toLower (trimSpace exchange)
  if tier = "" ∨ exchange = "" then .error "tier and exchange are required"
  else (listSymbolsByExchange collate symbols exchange).map fun active =>
    let active := if tier = "watchlist" then filterSymbolsByID active watchlist else active
    let limit := if tier = "top100" ∧ limit = 0 then 100 else limit
    some (collectMarkets exchange limit active [])

/-- What the planner reads from the database. -/
structure PlannerDB where
  policies : List Policy
  endpoints : EndpointTable
  symbols : SymbolTable
  watchlist : List ℤ

def PlannerDB.stores (db : PlannerDB) : Stores where
  listActivePolicies := .ok db.policies
  listActiveByExchangeDataType := listActiveByExchangeDataType collate db.endpoints
  listSymbolMarketsByTier := listSymbolMarketsByTier collate db.symbols db.watchlist

theorem PlannerDB.askSymbols_stores (db : PlannerDB) (p : Policy) :
    (db.stores collate).askSymbols p = listSymbolMarketsByTier collate db.symbols db.watchlist
      p.tier p.exchange (symbolLimitForTier p.tier) := by
  simp only [Stores.askSymbols, stores]

theorem PlannerDB.askEndpoints_stores (db : PlannerDB) (p : Policy) :
    (db.stores collate).askEndpoints p = listActiveByExchangeDataType collate db.endpoints
      p.exchange (endpointDataType p.dataType).1 := by
  simp only [Stores.askEndpoints, stores]

end

/-! ## The markets of a tier -/

theorem firstMarket_id {name : String} {symbol : Symbol} {m : SymbolMarket}
    (h : firstMarket name symbol = some m) :
    m.symbolID = symbol.id ∧ trimSpace m.sourceSymbol ≠ "" := by
  obtain ⟨market, hmarket, rfl⟩ := Option.map_eq_some_iff.1 h
  have husable := List.find?_some hmarket
  have hsource := of_decide_eq_true (Bool.and_eq_true_iff.1 husable).2
  refine ⟨rfl, ?_⟩
  rw [trimSpace_trimSpace]
  exact hsource

theorem mem_collectMarkets {exchange : String} {limit : ℤ} {symbols : List Symbol}
    {result : List SymbolMarket} {m : SymbolMarket}
    (h : m ∈ collectMarkets exchange limit symbols result) :
    m ∈ result ∨ m ∈ symbols.filterMap (firstMarket exchange) := by
  induction symbols generalizing result with
  | nil => exact .inl h
  | cons symbol rest ih =>
    have hhead : m ∈ result ++ (firstMarket exchange symbol).toList →
        m ∈ result ∨ m ∈ (symbol :: rest).filterMap (firstMarket exchange) := by
      intro hm
      refine (List.mem_append.1 hm).imp_right fun hm => ?_
      exact List.mem_filterMap.2 ⟨symbol, List.mem_cons_self, Option.mem_toList.1 hm⟩
    rw [collectMarkets] at h
    split at h
    · exact hhead h
    · rcases ih h with h | h
      · exact hhead h
      · obtain ⟨other, hother, hfirst⟩ := List.mem_filterMap.1 h
        exact .inr (List.mem_filterMap.2 ⟨other, List.mem_cons_of_mem _ hother, hfirst⟩)

theorem collectMarkets_eq_take (exchange : String) {limit : ℤ} (hlimit : 0 < limit)
    (symbols : List Symbol) {result : List SymbolMarket} (hresult : (result.length : ℤ) < limit) :
    collectMarkets exchange limit symbols result =
      (result ++ symbols.filterMap (firstMarket exchange)).take limit.toNat := by
  induction symbols generalizing result with
  | nil =>
    rw [collectMarkets, List.filterMap_nil, List.append_nil, List.take_of_length_le (by omega)]
  | cons symbol rest ih =>
    have hfirst : (symbol :: rest).filterMap (firstMarket exchange) =
        (firstMarket exchange symbol).toList ++ rest.filterMap (firstMarket exchange) := by
      cases h : firstMarket exchange symbol <;> simp [h]
    have hlength : (firstMarket exchange symbol).toList.length ≤ 1 := by
      cases firstMarket exchange symbol <;> simp
    rw [collectMarkets, hfirst, ← List.append_assoc]
    by_cases hfull : limit ≤ (result ++ (firstMarket exchange symbol).toList).length
    · rw [if_pos ⟨hlimit, hfull⟩, List.take_append_of_le_length (by omega), List.take_of_length_le]
      rw [List.length_append] at hfull ⊢
      omega
    · rw [if_neg (by omega)]
      exact ih (by omega)

/-- A symbol keeps its first market when only its active markets on the exchange
    are left. -/
theorem find?_listed (exchange : String) (markets : List MarketMapping) :
    (markets.filter fun m => m.normalizedExchange = exchange && m.isActive).find?
      (usable exchange) = markets.find? (usable exchange) := by
  rw [List.find?_filter]
  refine congrArg (List.find? · markets) (funext fun m => ?_)
  have himp : usable exchange m = true →
      (decide (m.normalizedExchange = exchange) && m.isActive) = true := by
    simp only [usable, Bool.and_eq_true]
    exact fun h => ⟨h.1.2, h.1.1⟩
  cases h : usable exchange m with
  | false => simp
  | true => rw [himp h]; rfl

theorem filterMap_firstMarket_listed (exchange : String) (symbols : List Symbol) :
    (symbols.filterMap fun symbol =>
      let markets := symbol.markets.filter fun m => m.normalizedExchange = exchange && m.isActive
      if markets.isEmpty then none else some { symbol with markets := markets }).filterMap
        (firstMarket exchange) = symbols.filterMap (firstMarket exchange) := by
  rw [List.filterMap_filterMap]
  refine List.filterMap_congr fun symbol _ => ?_
  have hfind := find?_listed exchange symbol.markets
  dsimp only
  split
  · rename_i hempty
    rw [List.isEmpty_iff.1 hempty, List.find?_nil] at hfind
    rw [firstMarket, ← hfind]
    rfl
  · rw [Option.bind_some, firstMarket, firstMarket, hfind]

/-- A market of any tier is the first usable market of an active symbol. -/
theorem mem_listSymbolMarketsByTier {collate : String → String → Bool} {symbols : SymbolTable}
    {watchlist : List ℤ} {tier exchange : String} {limit : ℤ} {markets : Slice SymbolMarket}
    {m : SymbolMarket}
    (h : listSymbolMarketsByTier collate symbols watchlist tier exchange limit = .ok markets)
    (hm : m ∈ markets.getD []) :
    ∃ active, listActiveSymbols collate symbols = .ok active ∧
      ∃ symbol ∈ active, firstMarket (toLower (trimSpace exchange)) symbol = some m := by
  simp only [listSymbolMarketsByTier] at h
  split at h
  · cases h
  · obtain ⟨listed, hlisted, rfl⟩ := map_eq_ok h
    simp only [listSymbolsByExchange, normalize_normalize] at hlisted
    split at hlisted
    · cases hlisted
    · obtain ⟨active, hactive, rfl⟩ := map_eq_ok hlisted
      refine ⟨active, hactive, ?_⟩
      rw [Option.getD_some] at hm
      have hm := (mem_collectMarkets hm).resolve_left List.not_mem_nil
      rw [← List.mem_filterMap, ← filterMap_firstMarket_listed]
      obtain ⟨symbol, hsymbol, hfirst⟩ := List.mem_filterMap.1 hm
      refine List.mem_filterMap.2 ⟨symbol, ?_, hfirst⟩
      split at hsymbol
      · exact (List.mem_filter.1 hsymbol).1
      · exact hsymbol

/-- **The markets of the tier `top100`** are the first usable markets of the active
    symbols, up to the limit. -/
theorem listSymbolMarketsByTier_top100 {collate : String → String → Bool} {symbols : SymbolTable}
    {watchlist : List ℤ} {tier exchange : String} (htier : toLower (trimSpace tier) = "top100")
    (hexchange : toLower (trimSpace exchange) ≠ "") :
    listSymbolMarketsByTier collate symbols watchlist tier exchange 100 =
      (listActiveSymbols collate symbols).map fun active =>
        some ((active.filterMap (firstMarket (toLower (trimSpace exchange)))).take 100) := by
  have hlisted := filterMap_firstMarket_listed (toLower (trimSpace exchange))
  have htop : ¬("top100" = "" ∨ toLower (trimSpace exchange) = "") := by simp [hexchange]
  have hwatch : ¬"top100" = "watchlist" := by decide
  simp only [listSymbolMarketsByTier, listSymbolsByExchange, htier, normalize_normalize, if_neg htop,
    if_neg hexchange, if_neg hwatch]
  cases listActiveSymbols collate symbols with
  | error e => rfl
  | ok active =>
    change Except.ok (some (collectMarkets _ 100 _ [])) = _
    rw [collectMarkets_eq_take _ (by decide) _ (by decide), List.nil_append, hlisted active]
    rfl

end Aggregator.Scheduler
