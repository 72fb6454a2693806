/-
  The list queries of the API: the overview (`overviewSQL` of
  `internal/api/derivatives/repository.go`), the series of a symbol
  (`series.go`) and the admin lists (`admin.go`).

  A `Listing` holds what a list function passes to its builder: the time column,
  the filters and the text around the clauses; `Listing.sql` is the query and
  its arguments.  `Query` names the queries, `Query.meant` is a query with every
  value in its place.

  * `Query.means`: the text of a query stands for `meant`;
  * `Query.alike`: options that ask for the same filters have the same text;
  * `queries_fixed`: both, for the options of accepted requests.
-/
import Aggregator.Api.Builder

namespace Aggregator.Api

open Aggregator.Go Aggregator.Placeholders

/-- `direction` of `series.go`. -/
def direction (value : String) : String := if equalFold value "asc" then "ASC" else "DESC"

/-- The text filters of the lists. -/
inductive Filter where
  | exchange
  | category
  | period
  | intervalOrDefault
  | periodOrDefault
deriving DecidableEq

/-- Some lists replace a missing interval or period by `5m`. -/
def Filter.value (opts : ListOptions) : Filter → String
  | exchange => opts.exchange
  | category => opts.category
  | period => opts.period
  | intervalOrDefault => if opts.interval = "" then "5m" else opts.interval
  | periodOrDefault => if opts.period = "" then "5m" else opts.period

/-- A list function: a series starts with the clause for its symbol; the order
    takes the direction. -/
structure Listing where
  series : Bool
  timeColumn : String
  filters : List (String × Filter)
  select : String
  order : String → String
  plain_select : plain select = true := by
    repeat' first
      | with_reducible refine plain_append ?_ ?_
      | exact plain_ofList (by decide)
  plain_order : plain (order "ASC") = true ∧ plain (order "DESC") = true := by
    refine ⟨?_, ?_⟩
    repeat' first
      | with_reducible refine plain_append ?_ ?_
      | exact plain_ofList (by decide)
  plain_column : plain timeColumn = true := by exact plain_ofList (by decide)
  plain_filters : ∀ f ∈ filters, plain f.1 = true := by
    repeat' first
      | exact List.forall_mem_nil _
      | refine List.forall_mem_cons.2 ⟨plain_ofList (by decide), ?_⟩

namespace Listing

def builder (l : Listing) (symbolID : ℤ) (opts : ListOptions) : Builder :=
  let b := if l.series then Builder.newSeries symbolID opts l.timeColumn
    else Builder.empty.timeRange opts l.timeColumn
  l.filters.foldl (fun b f => b.filter f.1 (f.2.value opts)) b

def sql (l : Listing) (symbolID : ℤ) (opts : ListOptions) : Writer Arg :=
  (l.builder symbolID opts).limited l.select (l.order (direction opts.direction)) opts

/-- The clauses of a list. -/
def clauses (l : Listing) (symbolID : ℤ) (opts : ListOptions) : List Clause :=
  (if l.series then [⟨"symbol_id", .eq, .int symbolID⟩] else []) ++
    Builder.boundClause l.timeColumn .ge opts.startTime ++
    Builder.boundClause l.timeColumn .le opts.endTime ++
    l.filters.flatMap fun f => Builder.textClause f.1 (f.2.value opts)

/-- The filters add their clauses in order. -/
theorem stands_filters {b : Builder} {cs : List Clause} (h : b.Stands cs) (opts : ListOptions)
    {filters : List (String × Filter)} (hfilters : ∀ f ∈ filters, plain f.1 = true) :
    (filters.foldl (fun b f => b.filter f.1 (f.2.value opts)) b).Stands
      (cs ++ filters.flatMap fun f => Builder.textClause f.1 (f.2.value opts)) := by
  induction filters generalizing b cs with
  | nil => simpa using h
  | cons f filters ih =>
    obtain ⟨hf, hfilters⟩ := List.forall_mem_cons.1 hfilters
    rw [List.foldl_cons, List.flatMap_cons, ← List.append_assoc]
    exact ih (h.filter hf _) hfilters

theorem stands_builder (l : Listing) (symbolID : ℤ) (opts : ListOptions) :
    (l.builder symbolID opts).Stands (l.clauses symbolID opts) := by
  refine stands_filters ?_ opts l.plain_filters
  have htimes : ∀ {b : Builder} {cs : List Clause}, b.Stands cs →
      (b.timeRange opts l.timeColumn).Stands (cs ++
        Builder.boundClause l.timeColumn .ge opts.startTime ++
        Builder.boundClause l.timeColumn .le opts.endTime) := fun h =>
    (h.timeBound l.plain_column _).timeBound l.plain_column _
  cases l.series with
  | false => exact htimes Builder.stands_empty
  | true => exact htimes (Builder.stands_empty.clause (plain_ofList (by decide)) _)

/-- The query of a list with its values in place. -/
def meant (l : Listing) (symbolID : ℤ) (opts : ListOptions) : List (Piece Arg) :=
  Builder.limitedPieces (l.clauses symbolID opts) l.select (l.order (direction opts.direction)) opts

theorem means (l : Listing) (symbolID : ℤ) (opts : ListOptions) :
    (l.sql symbolID opts).Means (l.meant symbolID opts) := by
  refine (l.stands_builder symbolID opts).limited l.plain_select ?_ opts
  unfold direction
  split_ifs
  · exact l.plain_order.1
  · exact l.plain_order.2

end Listing

/-! ## The lists -/

/-- `ListMarket`. -/
def marketListing : Listing where
  series := true
  timeColumn := "snapshot_time"
  filters := [("exchange", .exchange)]
  select :=
    "\n\t\tWITH latest AS (" ++
    "\n\t\t    SELECT DISTINCT ON (exchange)" ++
    "\n\t\t           exchange, source_symbol, snapshot_time, last_price, mark_price," ++
    "\n\t\t           index_price, bid_price, ask_price, volume_24h, quote_volume_24h," ++
    "\n\t\t           open_interest, funding_rate, raw_data" ++
    "\n\t\t    FROM derivative_market_snapshots\n\t\t    "
  order := fun _ =>
    "\n\t\t    ORDER BY exchange, snapshot_time DESC" ++
    "\n\t\t)" ++
    "\n\t\tSELECT COUNT(*) OVER(), exchange, source_symbol, snapshot_time," ++
    "\n\t\t       last_price, mark_price, index_price, bid_price, ask_price," ++
    "\n\t\t       volume_24h, quote_volume_24h, open_interest, funding_rate, raw_data" ++
    "\n\t\tFROM latest" ++
    "\n\t\tORDER BY exchange ASC"

/-- `ListKlinesPage`. -/
def klinesListing : Listing where
  series := true
  timeColumn := "open_time"
  filters := [("exchange", .exchange), ("\"interval\"", .intervalOrDefault)]
  select :=
    "\n\t\tSELECT COUNT(*) OVER(), exchange, \"interval\", open_time, close_time," ++
    "\n\t\t       open_price, high_price, low_price, close_price, volume," ++
    "\n\t\t       quote_volume, trade_count, is_closed" ++
    "\n\t\tFROM derivative_klines\n\t\t"
  order := fun direction => "\n\t\tORDER BY open_time " ++ direction

/-- `ListOpenInterestPage`. -/
def openInterestListing : Listing where
  series := true
  timeColumn := "snapshot_time"
  filters := [("exchange", .exchange)]
  select :=
    "\n\t\tSELECT COUNT(*) OVER(), exchange, '' AS period, snapshot_time," ++
    "\n\t\t       open_interest, open_interest_value" ++
    "\n\t\tFROM open_interest_snapshots\n\t\t"
  order := fun direction => "\n\t\tORDER BY snapshot_time " ++ direction

/-- `listOpenInterestHistory`. -/
def openInterestHistoryListing : Listing where
  series := true
  timeColumn := "\"timestamp\""
  filters := [("exchange", .exchange), ("period", .period)]
  select :=
    "\n\t\tSELECT COUNT(*) OVER(), exchange, period, \"timestamp\"," ++
    "\n\t\t       open_interest, open_interest_value" ++
    "\n\t\tFROM open_interest_history\n\t\t"
  order := fun direction => "\n\t\tORDER BY \"timestamp\" " ++ direction

/-- `ListFundingPage`. -/
def fundingListing : Listing where
  series := true
  timeColumn := "funding_time"
  filters := [("exchange", .exchange)]
  select :=
    "\n\t\tSELECT COUNT(*) OVER(), exchange, funding_time, funding_rate," ++
    "\n\t\t       realized_rate, NULL::timestamptz AS next_funding_time, mark_price" ++
    "\n\t\tFROM funding_rate_history\n\t\t"
  order := fun direction => "\n\t\tORDER BY funding_time " ++ direction

/-- `ListLongShortRatioPage`. -/
def longShortRatioListing : Listing where
  series := true
  timeColumn := "snapshot_time"
  filters := [("exchange", .exchange), ("period", .periodOrDefault)]
  select :=
    "\n\t\tSELECT COUNT(*) OVER(), exchange, period, snapshot_time," ++
    "\n\t\t       long_account_ratio, short_account_ratio, long_short_ratio," ++
    "\n\t\t       top_trader_long_ratio, top_trader_short_ratio" ++
    "\n\t\tFROM long_short_ratio_snapshots\n\t\t"
  order := fun direction => "\n\t\tORDER BY snapshot_time " ++ direction

/-- `ListTakerFlowPage`. -/
def takerFlowListing : Listing where
  series := true
  timeColumn := "snapshot_time"
  filters := [("exchange", .exchange), ("period", .periodOrDefault)]
  select :=
    "\n\t\tSELECT COUNT(*) OVER(), exchange, period, snapshot_time," ++
    "\n\t\t       taker_buy_volume, taker_sell_volume, taker_buy_quote_volume," ++
    "\n\t\t       taker_sell_quote_volume, buy_sell_delta, buy_sell_delta_quote," ++
    "\n\t\t       buy_sell_ratio" ++
    "\n\t\tFROM taker_flow_snapshots\n\t\t"
  order := fun direction => "\n\t\tORDER BY snapshot_time " ++ direction

/-- `ListCVDPage`. -/
def cvdListing : Listing where
  series := true
  timeColumn := "snapshot_time"
  filters := [("exchange", .exchange), ("period", .periodOrDefault)]
  select :=
    "\n\t\tSELECT COUNT(*) OVER(), exchange, period, snapshot_time," ++
    "\n\t\t       cvd_value, cvd_delta, cvd_change, cvd_change_percent" ++
    "\n\t\tFROM cvd_snapshots\n\t\t"
  order := fun direction => "\n\t\tORDER BY snapshot_time " ++ direction

/-- `ListLiquidationsPage`. -/
def liquidationsListing : Listing where
  series := true
  timeColumn := "bucket_time"
  filters := [("exchange", .exchange), ("period", .periodOrDefault)]
  select :=
    "\n\t\tSELECT COUNT(*) OVER(), exchange, period, bucket_time," ++
    "\n\t\t       long_liquidation_count, short_liquidation_count," ++
    "\n\t\t       long_liquidation_usd, short_liquidation_usd," ++
    "\n\t\t       total_liquidation_usd, largest_liquidation_usd" ++
    "\n\t\tFROM liquidation_aggregates\n\t\t"
  order := fun direction => "\n\t\tORDER BY bucket_time " ++ direction

/-- `ListBasisPage`. -/
def basisListing : Listing where
  series := true
  timeColumn := "snapshot_time"
  filters := [("exchange", .exchange)]
  select :=
    "\n\t\tSELECT COUNT(*) OVER(), exchange, snapshot_time, futures_price," ++
    "\n\t\t       spot_price, mark_price, index_price, basis_value," ++
    "\n\t\t       basis_percent, annualized_basis_percent, funding_rate" ++
    "\n\t\tFROM basis_premium_snapshots\n\t\t"
  order := fun direction => "\n\t\tORDER BY snapshot_time " ++ direction

/-- `ListOrderbookImbalancePage`. -/
def orderbookImbalanceListing : Listing where
  series := true
  timeColumn := "snapshot_time"
  filters := [("exchange", .exchange)]
  select :=
    "\n\t\tSELECT COUNT(*) OVER(), exchange, snapshot_time, depth_levels," ++
    "\n\t\t       mid_price, spread_percent, bid_depth_usd, ask_depth_usd," ++
    "\n\t\t       imbalance_percent" ++
    "\n\t\tFROM orderbook_imbalance_snapshots\n\t\t"
  order := fun direction => "\n\t\tORDER BY snapshot_time " ++ direction

/-- `ListExchangeDivergencePage`. -/
def exchangeDivergenceListing : Listing where
  series := true
  timeColumn := "snapshot_time"
  filters := []
  select :=
    "\n\t\tSELECT COUNT(*) OVER(), data_type, snapshot_time," ++
    "\n\t\t       price_spread_percent, oi_spread_percent, funding_spread," ++
    "\n\t\t       volume_spread_percent, COALESCE(strongest_exchange, '')," ++
    "\n\t\t       COALESCE(weakest_exchange, '')," ++
    "\n\t\t       raw_by_exchange, metadata" ++
    "\n\t\tFROM exchange_divergence_snapshots\n\t\t"
  order := fun direction => "\n\t\tORDER BY snapshot_time " ++ direction

/-- `ListCollectorHealth`. -/
def collectorHealthListing : Listing where
  series := false
  timeColumn := "heartbeat_at"
  filters := [("exchange", .exchange)]
  select :=
    "\n\t\tSELECT COUNT(*) OVER(), service_name, instance_id, COALESCE(exchange, '')," ++
    "\n\t\t       COALESCE(data_type, ''), status, heartbeat_at," ++
    "\n\t\t       last_success_at, last_error_at, COALESCE(error_message, '')," ++
    "\n\t\t       metrics" ++
    "\n\t\tFROM collector_health\n\t\t"
  order := fun direction => "\n\t\tORDER BY heartbeat_at " ++ direction

/-- `ListExchangeHealth`. -/
def exchangeHealthListing : Listing where
  series := false
  timeColumn := "heartbeat_at"
  filters := [("exchange", .exchange)]
  select :=
    "\n\t\tSELECT COUNT(*) OVER(), COALESCE(exchange, 'unknown') AS exchange," ++
    "\n\t\t       MAX(heartbeat_at) AS last_heartbeat_at," ++
    "\n\t\t       SUM(CASE WHEN status = 'healthy' THEN 1 ELSE 0 END)::int AS healthy_count," ++
    "\n\t\t       SUM(CASE WHEN status = 'degraded' THEN 1 ELSE 0 END)::int AS degraded_count," ++
    "\n\t\t       SUM(CASE WHEN status IN ('unhealthy', 'stopped') THEN 1 ELSE 0 END)::int AS" ++
    " unhealthy_count" ++
    "\n\t\tFROM collector_health\n\t\t"
  order := fun _ =>
    "\n\t\tGROUP BY COALESCE(exchange, 'unknown')" ++
    "\n\t\tORDER BY exchange ASC"

/-- `ListJobs`. -/
def jobsListing : Listing where
  series := false
  timeColumn := "scheduled_at"
  filters := [("exchange", .exchange), ("status", .category)]
  select :=
    "\n\t\tSELECT COUNT(*) OVER(), id, exchange, data_type, tier," ++
    "\n\t\t       COALESCE(symbol_id, 0), source_symbol, COALESCE(period, '')," ++
    "\n\t\t       status, priority, scheduled_at, retry_count, max_retry," ++
    "\n\t\t       COALESCE(last_error_type, ''), COALESCE(error_message, '')," ++
    "\n\t\t       job_mode" ++
    "\n\t\tFROM derivative_collection_jobs\n\t\t"
  order := fun direction => "\n\t\tORDER BY scheduled_at " ++ direction ++ ", priority ASC"

/-- `ListQualityIssues`. -/
def qualityIssuesListing : Listing where
  series := false
  timeColumn := "last_seen_at"
  filters := [("exchange", .exchange), ("status", .category)]
  select :=
    "\n\t\tSELECT COUNT(*) OVER(), issue_key, severity, COALESCE(exchange, '')," ++
    "\n\t\t       data_type, COALESCE(symbol_id, 0), COALESCE(source_symbol, '')," ++
    "\n\t\t       issue_type, status, last_seen_at, details" ++
    "\n\t\tFROM data_quality_issues\n\t\t"
  order := fun direction => "\n\t\tORDER BY last_seen_at " ++ direction

/-- `ListDataGaps`. -/
def dataGapsListing : Listing where
  series := false
  timeColumn := "gap_start"
  filters := [("exchange", .exchange), ("period", .period), ("backfill_status", .category)]
  select :=
    "\n\t\tSELECT COUNT(*) OVER(), gap_key, symbol_id, exchange, data_type," ++
    "\n\t\t       COALESCE(period, ''), gap_start, gap_end, backfill_status," ++
    "\n\t\t       COALESCE(expected_interval_seconds, 0), last_observed_at," ++
    "\n\t\t       metadata" ++
    "\n\t\tFROM data_gaps\n\t\t"
  order := fun direction => "\n\t\tORDER BY gap_start " ++ direction

/-! ## The overview -/

/-- `overviewSort`. -/
def overviewSort (sort : String) : String :=
  match sort with
  | "symbol" => "s.symbol"
  | "rank" => "s.cmc_rank"
  | "cmc_rank" => "s.cmc_rank"
  | "volume" => "latest.total_volume_24h"
  | "oi" => "latest.total_open_interest"
  | "open_interest" => "latest.total_open_interest"
  | "funding" => "latest.avg_funding_rate"
  | "price" => "COALESCE(latest.price_weighted, latest.price_avg)"
  | "freshness" => "latest.snapshot_time"
  | _ => "s.cmc_rank"

def overviewSelect : String :=
  "\n\t\tWITH latest AS (" ++
  "\n\t\t    SELECT DISTINCT ON (symbol_id)" ++
  "\n\t\t           symbol_id, snapshot_time, price_avg, price_weighted," ++
  "\n\t\t           total_volume_24h, total_quote_volume_24h," ++
  "\n\t\t           total_open_interest, total_open_interest_value," ++
  "\n\t\t           avg_funding_rate, total_cvd," ++
  "\n\t\t           total_long_liquidation_usd, total_short_liquidation_usd," ++
  "\n\t\t           total_liquidation_usd, avg_basis_percent," ++
  "\n\t\t           avg_orderbook_imbalance_percent, exchange_count," ++
  "\n\t\t           available_exchanges, raw_by_exchange, window_metrics," ++
  "\n\t\t           anomaly_flags, quality_metadata" ++
  "\n\t\t    FROM derivative_aggregated_snapshots" ++
  "\n\t\t    ORDER BY symbol_id, snapshot_time DESC" ++
  "\n\t\t)" ++
  "\n\t\tSELECT COUNT(*) OVER()," ++
  "\n\t\t       s.id, s.symbol, s.base_asset, s.quote_asset, s.market_type," ++
  "\n\t\t       s.cmc_rank, s.is_active, COALESCE(s.markets, '[]'::jsonb)," ++
  "\n\t\t       latest.snapshot_time, latest.price_avg, latest.price_weighted," ++
  "\n\t\t       latest.total_volume_24h, latest.total_quote_volume_24h," ++
  "\n\t\t       latest.total_open_interest, latest.total_open_interest_value," ++
  "\n\t\t       latest.avg_funding_rate, latest.total_cvd," ++
  "\n\t\t       latest.total_long_liquidation_usd," ++
  "\n\t\t       latest.total_short_liquidation_usd," ++
  "\n\t\t       latest.total_liquidation_usd, latest.avg_basis_percent," ++
  "\n\t\t       latest.avg_orderbook_imbalance_percent," ++
  "\n\t\t       COALESCE(latest.exchange_count, 0)," ++
  "\n\t\t       COALESCE(latest.available_exchanges, '[]'::jsonb)," ++
  "\n\t\t       COALESCE(latest.raw_by_exchange, '\x7b\x7d'::jsonb)," ++
  "\n\t\t       COALESCE(latest.window_metrics, '\x7b\x7d'::jsonb)," ++
  "\n\t\t       COALESCE(latest.anomaly_flags, '[]'::jsonb)," ++
  "\n\t\t       COALESCE(latest.quality_metadata, '\x7b\x7d'::jsonb)" ++
  "\n\t\tFROM symbols s" ++
  "\n\t\tLEFT JOIN latest ON latest.symbol_id = s.id" ++
  "\n\t\tWHERE s.is_active = true\n\t"

/-- A text that is given. -/
def given (s : String) : Option Arg := if s ≠ "" then some (.text s) else none

/-- The pattern of a search that is given. -/
def searchPattern (s : String) : Option Arg := if s ≠ "" then some (.text ("%" ++ s ++ "%")) else none

/-- The filters of the overview.  The pattern of the search is one argument with
    three placeholders. -/
def overviewFilters (opts : ListOptions) : List (Slot Arg) :=
  [⟨[" AND (s.symbol ILIKE ", " OR s.base_asset ILIKE ", " OR s.quote_asset ILIKE "],
      searchPattern opts.search, ")"⟩,
    ⟨[" AND s.market_type = "], given opts.category, ""⟩,
    ⟨[" AND EXISTS (SELECT 1 FROM jsonb_array_elements(COALESCE(s.markets, '[]'::jsonb)) market" ++
      " WHERE lower(market->>'exchange') = "], given opts.exchange, ")"⟩,
    ⟨[" AND latest.total_volume_24h >= "], opts.minVolume.map .float, ""⟩,
    ⟨[" AND latest.total_open_interest >= "], opts.minOI.map .float, ""⟩,
    ⟨[" AND s.cmc_rank >= "], opts.rankMin.map .int, ""⟩,
    ⟨[" AND s.cmc_rank <= "], opts.rankMax.map .int, ""⟩]

def overviewOrder (opts : ListOptions) : String :=
  " ORDER BY " ++ overviewSort opts.sort ++ " " ++ toUpper opts.direction ++
    " NULLS LAST, s.symbol ASC"

/-- `overviewSQL`; its second parameter is not used. -/
def overviewSQL (opts : ListOptions) (_symbolsOnly : Bool) : Writer Arg :=
  let w : Writer Arg := ⟨overviewSelect, []⟩
  let w := (w.writeSlots (overviewFilters opts)).writeText (overviewOrder opts)
  (w.writeArg " LIMIT " (.int opts.limit) "").writeArg " OFFSET " (.int opts.offset) ""

/-- The overview with its values in place. -/
def overviewMeant (opts : ListOptions) : List (Piece Arg) :=
  literal overviewSelect ++ (overviewFilters opts).flatMap Slot.pieces ++
    literal (overviewOrder opts) ++ literal " LIMIT " ++ [.value (.int opts.limit)] ++
    literal " OFFSET " ++ [.value (.int opts.offset)]

theorem plain_overviewSelect : plain overviewSelect = true := by
  unfold overviewSelect
  repeat' first
    | with_reducible refine plain_append ?_ ?_
    | exact plain_ofList (by decide)

theorem plain_overviewFilters (opts : ListOptions) : ∀ f ∈ overviewFilters opts, f.Plain := by
  unfold overviewFilters
  repeat' first
    | exact List.forall_mem_nil _
    | refine List.forall_mem_cons.2 ⟨?_, ?_⟩
    | refine ⟨List.cons_ne_nil _ _, ?_, ?_⟩
    | with_reducible refine plain_append ?_ ?_
    | exact plain_ofList (by decide)

theorem plain_overviewOrder {opts : ListOptions} (h : opts.Accepted) :
    plain (overviewOrder opts) = true := by
  have hsort : plain (overviewSort opts.sort) = true := by
    unfold overviewSort
    split <;> exact plain_ofList (by decide)
  have hdirection : plain (toUpper opts.direction) = true := by
    rcases h.direction with hdir | hdir <;> rw [hdir] <;> decide
  unfold overviewOrder
  refine plain_append (plain_append (plain_append (plain_append ?_ hsort) ?_) hdirection) ?_ <;>
    exact plain_ofList (by decide)

theorem overviewSQL_means {opts : ListOptions} (h : opts.Accepted) (symbolsOnly : Bool) :
    (overviewSQL opts symbolsOnly).Means (overviewMeant opts) := by
  have hstart : (⟨overviewSelect, []⟩ : Writer Arg).Means (literal overviewSelect) := by
    have hwritten := (Writer.means_nil Arg).writeText plain_overviewSelect
    rwa [Writer.writeText, String.empty_append, List.nil_append] at hwritten
  have hpage := (((hstart.writeSlots (plain_overviewFilters opts)).writeText
    (plain_overviewOrder h)).writeArg " LIMIT " (plain_ofList (by decide)) (.int opts.limit) ""
    rfl).writeArg " OFFSET " (plain_ofList (by decide)) (.int opts.offset) "" rfl
  unfold overviewSQL
  simpa only [overviewMeant, literal, List.append_assoc, String.toList_empty, List.map_nil,
    List.append_nil] using hpage

/-! ## All of them -/

/-- The queries with the options of a request. -/
inductive Query where
  | overview
  | symbols
  | market
  | klines
  | openInterest
  | funding
  | longShortRatio
  | takerFlow
  | cvd
  | liquidations
  | basis
  | orderbookImbalance
  | exchangeDivergence
  | collectorHealth
  | exchangeHealth
  | jobs
  | qualityIssues
  | dataGaps
deriving DecidableEq

namespace Query

/-- The list a query is made from; the open interest of a period is listed from
    its history.  The overview and the symbols have no list. -/
def listing (opts : ListOptions) : Query → Option Listing
  | overview => none
  | symbols => none
  | market => marketListing
  | klines => klinesListing
  | openInterest => if opts.period ≠ "" then openInterestHistoryListing else openInterestListing
  | funding => fundingListing
  | longShortRatio => longShortRatioListing
  | takerFlow => takerFlowListing
  | cvd => cvdListing
  | liquidations => liquidationsListing
  | basis => basisListing
  | orderbookImbalance => orderbookImbalanceListing
  | exchangeDivergence => exchangeDivergenceListing
  | collectorHealth => collectorHealthListing
  | exchangeHealth => exchangeHealthListing
  | jobs => jobsListing
  | qualityIssues => qualityIssuesListing
  | dataGaps => dataGapsListing

/-- The text of a query and its arguments. -/
def sql (q : Query) (symbolID : ℤ) (opts : ListOptions) : Writer Arg :=
  match q.listing opts with
  | some l => l.sql symbolID opts
  | none => overviewSQL opts (q = symbols)

/-- A query with its values in place. -/
def meant (q : Query) (symbolID : ℤ) (opts : ListOptions) : List (Piece Arg) :=
  match q.listing opts with
  | some l => l.meant symbolID opts
  | none => overviewMeant opts

theorem means (q : Query) (symbolID : ℤ) {opts : ListOptions} (h : opts.Accepted) :
    (q.sql symbolID opts).Means (q.meant symbolID opts) := by
  unfold sql meant
  cases q.listing opts with
  | none => exact overviewSQL_means h _
  | some l => exact l.means symbolID opts

end Query

/-- The same filters are present, and the direction and the column that sorts
    the overview are the same. -/
structure ListOptions.Agree (o o' : ListOptions) : Prop where
  exchange : o.exchange = "" ↔ o'.exchange = ""
  search : o.search = "" ↔ o'.search = ""
  category : o.category = "" ↔ o'.category = ""
  interval : o.interval = "" ↔ o'.interval = ""
  period : o.period = "" ↔ o'.period = ""
  startTime : o.startTime.isSome = o'.startTime.isSome
  endTime : o.endTime.isSome = o'.endTime.isSome
  minVolume : o.minVolume.isSome = o'.minVolume.isSome
  minOI : o.minOI.isSome = o'.minOI.isSome
  rankMin : o.rankMin.isSome = o'.rankMin.isSome
  rankMax : o.rankMax.isSome = o'.rankMax.isSome
  direction : o.direction = o'.direction
  sort : overviewSort o.sort = overviewSort o'.sort

section Agree
variable {o o' : ListOptions} (h : o.Agree o')

include h

theorem Filter.value_eq_empty_iff (f : Filter) : f.value o = "" ↔ f.value o' = "" := by
  have hdefault : ∀ s : String, (if s = "" then "5m" else s) ≠ "" := by
    intro s
    split_ifs with hs
    · decide
    · exact hs
  cases f with
  | exchange => exact h.exchange
  | category => exact h.category
  | period => exact h.period
  | intervalOrDefault => exact iff_of_false (hdefault _) (hdefault _)
  | periodOrDefault => exact iff_of_false (hdefault _) (hdefault _)

theorem Listing.alike_builder (l : Listing) (symbolID symbolID' : ℤ) :
    (l.builder symbolID o).Alike (l.builder symbolID' o') := by
  have hfilters : ∀ (filters : List (String × Filter)) {b b' : Builder}, b.Alike b' →
      (filters.foldl (fun b f => b.filter f.1 (f.2.value o)) b).Alike
        (filters.foldl (fun b f => b.filter f.1 (f.2.value o')) b') := by
    intro filters
    induction filters with
    | nil => exact fun hb => hb
    | cons f filters ih => exact fun hb => ih (hb.filter f.1 (f.2.value_eq_empty_iff h))
  have htimes : ∀ {b b' : Builder}, b.Alike b' →
      (b.timeRange o l.timeColumn).Alike (b'.timeRange o' l.timeColumn) := fun hb =>
    (hb.timeBound _ _ h.startTime).timeBound _ _ h.endTime
  have hempty : Builder.empty.Alike Builder.empty := ⟨rfl, rfl⟩
  refine hfilters l.filters ?_
  cases l.series with
  | false => exact htimes hempty
  | true => exact htimes (hempty.clause ..)

theorem Listing.alike (l : Listing) (symbolID symbolID' : ℤ) :
    (l.sql symbolID o).Alike (l.sql symbolID' o') := by
  unfold Listing.sql
  rw [h.direction]
  exact (l.alike_builder h symbolID symbolID').limited ..

theorem overviewSQL_alike (symbolsOnly : Bool) :
    (overviewSQL o symbolsOnly).Alike (overviewSQL o' symbolsOnly) := by
  have hgiven : ∀ (arg : String → Arg) {s s' : String}, (s = "" ↔ s' = "") →
      (if s ≠ "" then some (arg s) else none).isSome =
        (if s' ≠ "" then some (arg s') else none).isSome := by
    intro arg s s' hs
    by_cases hempty : s = ""
    · rw [if_neg (not_not.2 hempty), if_neg (not_not.2 (hs.1 hempty))]
    · rw [if_pos hempty, if_pos (mt hs.2 hempty)]
      rfl
  have hslots : List.Forall₂ (fun f f' : Slot Arg => f.before = f'.before ∧ f.after = f'.after ∧
      f.value.isSome = f'.value.isSome) (overviewFilters o) (overviewFilters o') := by
    unfold overviewFilters
    refine .cons ⟨rfl, rfl, hgiven (fun s => .text ("%" ++ s ++ "%")) h.search⟩ (.cons
      ⟨rfl, rfl, hgiven .text h.category⟩ (.cons ⟨rfl, rfl, hgiven .text h.exchange⟩ (.cons
      ⟨rfl, rfl, ?_⟩ (.cons ⟨rfl, rfl, ?_⟩ (.cons ⟨rfl, rfl, ?_⟩ (.cons ⟨rfl, rfl, ?_⟩ .nil))))))
    · simpa using h.minVolume
    · simpa using h.minOI
    · simpa using h.rankMin
    · simpa using h.rankMax
  have horder : overviewOrder o = overviewOrder o' := by
    unfold overviewOrder
    rw [h.sort, h.direction]
  unfold overviewSQL
  rw [horder]
  exact (((Writer.Alike.rfl.writeSlots hslots).writeText _).writeArg ..).writeArg ..

theorem Query.alike (q : Query) (symbolID symbolID' : ℤ) :
    (q.sql symbolID o).Alike (q.sql symbolID' o') := by
  have hlisting : q.listing o = q.listing o' := by
    cases q with
    | openInterest => simp only [Query.listing, ne_eq, h.period]
    | _ => rfl
  unfold Query.sql
  rw [hlisting]
  cases q.listing o' with
  | none => exact overviewSQL_alike h _
  | some l => exact l.alike h symbolID symbolID'

end Agree

/-- **The queries are fixed by the filters that are asked for.**  With the
    options of an accepted request and any that agree with them on these, every
    query has the same text; its placeholders are the numbers of its arguments,
    and with the arguments in their places the text is the query that is
    meant. -/
theorem queries_fixed {pf : ParseFloat} {rfc3339 : ParseRFC3339} {request : String → String}
    {o o' : ListOptions} (ho : parseListOptions pf rfc3339 request = .ok o) (h : o.Agree o')
    (q : Query) (symbolID symbolID' : ℤ) :
    (q.sql symbolID o).text = (q.sql symbolID' o').text ∧
    (∀ n, Token.param n ∈ scan (q.sql symbolID o).text ↔
      1 ≤ n ∧ n ≤ (q.sql symbolID o).args.length) ∧
    (scan (q.sql symbolID o).text).map (Token.bind (q.sql symbolID o).args) =
      (q.meant symbolID o).map some := by
  have hmeans := q.means symbolID (parseListOptions_ok ho)
  exact ⟨(q.alike h symbolID symbolID').1, hmeans.param_iff, hmeans.bind⟩

/-- Two requests for the overview with different searches and limits. -/
theorem queries_fixed_search :
    parseListOptions parseDecimal (fun _ => none)
      (fun name => if name = "search" then "$1" else if name = "limit" then "5" else "") =
        .ok { pageOptions 1 5 with search := "$1" } ∧
    (Query.overview.sql 0 { pageOptions 1 5 with search := "$1" }).text =
      (Query.overview.sql 0 { pageOptions 2 50 with search := "BTC" }).text ∧
    (Query.overview.sql 0 { pageOptions 1 5 with search := "$1" }).args =
      [.text "%$1%", .int 5, .int 0] := by
  have h : parseListOptions parseDecimal (fun _ => none)
      (fun name => if name = "search" then "$1" else if name = "limit" then "5" else "") =
        .ok { pageOptions 1 5 with search := "$1" } := by
    decide +kernel
  have hagree : ListOptions.Agree { pageOptions 1 5 with search := "$1" }
      { pageOptions 2 50 with search := "BTC" } := by
    constructor <;> decide
  exact ⟨h, (queries_fixed h hagree .overview 0 0).1, by decide⟩

end Aggregator.Api
