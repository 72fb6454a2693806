/-
  The market types of planned jobs.

  A policy has a market type, and so have endpoints and markets.  The planner asks
  for the endpoints of an exchange and a data type only and takes the first, and
  of each symbol the first usable market on the exchange.

  * `marketTypes_iff`: the jobs of a run have endpoints and markets of the market
    type of their policies exactly if for each policy the first ones are such;
  * `spot_endpoint_used`: a job for futures is sent to the endpoint of the spot
    market, with the symbol of the spot market.
-/
import Aggregator.Scheduler.Registry

namespace Aggregator.Scheduler

open Aggregator.Go Aggregator.Symbols

/-- The policy is planned for an endpoint. -/
def Policy.RequiresEndpoint (p : Policy) : Prop := (endpointDataType p.dataType).2 = true

/-- The name of the exchange as the stores compare it. -/
def Policy.exchangeName (p : Policy) : String := toLower (trimSpace p.exchange)

/-- A usable market of the symbol has the market type and the source symbol. -/
def HasMarket (exchange marketType sourceSymbol : String) (symbol : Symbol) : Prop :=
  ∃ m ∈ symbol.markets, usable exchange m = true ∧ trimSpace m.marketType = marketType ∧
    trimSpace m.sourceSymbol = sourceSymbol

instance (exchange marketType sourceSymbol : String) (symbol : Symbol) :
    Decidable (HasMarket exchange marketType sourceSymbol symbol) :=
  inferInstanceAs (Decidable (∃ m ∈ symbol.markets, _))

/-- The job refers to an active endpoint and to a market of the policy's market
    type. -/
structure OfMarketType (db : PlannerDB) (p : Policy) (job : NewJob) : Prop where
  endpoint : ∃ row ∈ db.endpoints.rows, row.isActive = true ∧
    metadataField job.toJob "endpoint_id" = some (.int row.id) ∧ row.marketType = p.marketType
  market : ∃ row ∈ db.symbols.rows, row.id = job.symbolID ∧ ∃ symbol, scanSymbol row = .ok symbol ∧
    HasMarket p.exchangeName p.marketType job.sourceSymbol symbol

section
variable (collate : String → String → Bool) (db : PlannerDB)

/-- The endpoints the registry lists for a policy. -/
def endpointRows (p : Policy) : List EndpointRow :=
  activeEndpoints collate db.endpoints p.exchangeName (trimSpace (endpointDataType p.dataType).1)

/-- If there is a first endpoint for the policy and the first market of a symbol is
    taken, the endpoint is of the policy's market type, and a market of that type
    has the source symbol of the first one. -/
def FirstsAgree (p : Policy) : Prop :=
  ∀ row rest active markets, endpointRows collate db p = row :: rest →
    listActiveSymbols collate db.symbols = .ok active →
    (db.stores collate).symbolsOf p = .ok markets →
    ∀ symbol ∈ active, ∀ m ∈ markets, firstMarket p.exchangeName symbol = some m →
      row.marketType = p.marketType ∧
        HasMarket p.exchangeName p.marketType m.sourceSymbol symbol

variable {collate db} {p : Policy}

/-! ## What the stores answer -/

theorem mem_endpointRows {row : EndpointRow} (h : row ∈ endpointRows collate db p) :
    row ∈ db.endpoints.rows ∧ row.isActive = true := by
  have hmem := List.mem_filter.1 ((List.mem_insertionSort _).1 h)
  exact ⟨hmem.1, (Bool.and_eq_true_iff.1 hmem.2).2⟩

/-- The endpoints of a policy are those of the registry, in its order. -/
theorem endpointsOf_eq_ok (hreq : p.RequiresEndpoint) {endpoints : List Endpoint}
    (h : (db.stores collate).endpointsOf p = .ok endpoints) :
    (endpointRows collate db p).map (·.toEndpoint) = endpoints := by
  rw [Policy.RequiresEndpoint] at hreq
  rw [Stores.endpointsOf, if_pos hreq, PlannerDB.askEndpoints_stores,
    listActiveByExchangeDataType] at h
  dsimp only at h
  split at h
  · cases h
  · obtain rfl := Except.ok.inj h
    have hrows : ∀ rows : List Endpoint, (if rows.isEmpty then none else some rows).getD [] = rows := by
      intro rows
      cases rows with
      | nil => rfl
      | cons endpoint rest => rfl
    exact (hrows _).symm

theorem exists_symbol_of_mem {markets : List SymbolMarket} {m : SymbolMarket}
    (h : (db.stores collate).symbolsOf p = .ok markets) (hm : m ∈ markets) :
    ∃ active, listActiveSymbols collate db.symbols = .ok active ∧
      ∃ symbol ∈ active, firstMarket p.exchangeName symbol = some m := by
  obtain ⟨answer, hanswer, rfl⟩ := map_eq_ok h
  rw [PlannerDB.askSymbols_stores] at hanswer
  exact mem_listSymbolMarketsByTier hanswer hm

theorem exists_row_of_symbol {active : List Symbol} {symbol : Symbol}
    (hactive : listActiveSymbols collate db.symbols = .ok active) (h : symbol ∈ active) :
    ∃ row ∈ db.symbols.rows, row.id = symbol.id ∧ scanSymbol row = .ok symbol := by
  obtain ⟨row, hrow, hscan⟩ := mem_of_mapM_ok hactive h
  have hmem := (List.mem_filter.1 ((List.mem_insertionSort _).1 hrow)).1
  obtain ⟨markets, -, rfl⟩ := map_eq_ok hscan
  exact ⟨row, hmem, rfl, hscan⟩

/-! ## The jobs of a policy -/

variable {bucket : ℤ} {m : SymbolMarket}

theorem endpoint_id_plannedJob (hreq : p.RequiresEndpoint) (endpoint : Endpoint) :
    metadataField (plannedJob p endpoint bucket m).toJob "endpoint_id" = some (.int endpoint.id) := by
  rw [Policy.RequiresEndpoint] at hreq
  simp only [toJob_plannedJob, Job.planned, metadataField, plannerMetadata, if_pos hreq]
  rfl

/-- A job for the first endpoint and the first market of a symbol is of the market
    type of its policy exactly if these are. -/
theorem ofMarketType_plannedJob (hreq : p.RequiresEndpoint) {row : EndpointRow}
    (hrow : row ∈ endpointRows collate db p) {active : List Symbol} {symbol : Symbol}
    (hactive : listActiveSymbols collate db.symbols = .ok active) (hsymbol : symbol ∈ active)
    (hfirst : firstMarket p.exchangeName symbol = some m) :
    OfMarketType db p (plannedJob p row.toEndpoint bucket m) ↔
      row.marketType = p.marketType ∧
        HasMarket p.exchangeName p.marketType m.sourceSymbol symbol := by
  obtain ⟨hmem, hisActive⟩ := mem_endpointRows hrow
  obtain ⟨srow, hsrow, hid, hscan⟩ := exists_row_of_symbol hactive hsymbol
  have hmid : (plannedJob p row.toEndpoint bucket m).symbolID = symbol.id := by
    rw [toJob_plannedJob]
    exact (firstMarket_id hfirst).1
  have hsource : (plannedJob p row.toEndpoint bucket m).sourceSymbol = m.sourceSymbol := by
    rw [toJob_plannedJob]
    rfl
  constructor
  · rintro ⟨⟨row', hmem', -, hfield, htype⟩, srow', hsrow', hid', symbol', hscan', hmarket⟩
    -- ids are unique in both tables
    rw [endpoint_id_plannedJob hreq] at hfield
    have hrow' : row' = row :=
      Table.eq_of_key hmem' hmem (Json.int.inj (Option.some.inj hfield)).symm
    have hsrow'' : srow' = srow := Table.eq_of_key hsrow' hsrow (by rw [hid', hid, hmid])
    subst hrow' hsrow''
    obtain rfl := Except.ok.inj (hscan'.symm.trans hscan)
    rw [hsource] at hmarket
    exact ⟨htype, hmarket⟩
  · rintro ⟨htype, hmarket⟩
    rw [← hsource] at hmarket
    exact ⟨⟨row, hmem, hisActive, endpoint_id_plannedJob hreq _, htype⟩, srow, hsrow,
      hid.trans hmid.symm, symbol, hscan, hmarket⟩

/-- The jobs of one policy. -/
theorem ofMarketType_jobsOf_iff (now : ℤ) (hruns : p.Runs) (hreq : p.RequiresEndpoint)
    (hfound : ∃ endpoints, (db.stores collate).endpointsOf p = .ok endpoints) :
    (∀ x ∈ jobsOf (db.stores collate) now p, OfMarketType db x.1 x.2) ↔
      FirstsAgree collate db p := by
  constructor
  · intro h row rest active markets hrows hactive hmarkets symbol hsymbol m hm hfirst
    obtain ⟨endpoints, hendpoints⟩ := hfound
    have hrows' := endpointsOf_eq_ok hreq hendpoints
    rw [hrows, List.map_cons] at hrows'
    obtain rfl := hrows'
    have hsource : trimSpace m.sourceSymbol ≠ "" := (firstMarket_id hfirst).2
    have hjob := h _ (mem_jobsOf.2 ⟨hruns, _, _, markets, hendpoints, hmarkets,
      mem_jobsFor.2 ⟨m, hm, hsource, rfl⟩⟩)
    have hrow : row ∈ endpointRows collate db p := by
      rw [hrows]
      exact List.mem_cons_self
    exact (ofMarketType_plannedJob hreq hrow hactive hsymbol hfirst).1 hjob
  · intro h x hx
    obtain ⟨-, endpoint, rest, markets, hendpoints, hmarkets, hx⟩ := mem_jobsOf.1 hx
    obtain ⟨m, hm, -, rfl⟩ := mem_jobsFor.1 hx
    obtain ⟨row, rows, hrows, rfl, -⟩ :=
      List.map_eq_cons_iff.1 (endpointsOf_eq_ok hreq hendpoints)
    obtain ⟨active, hactive, symbol, hsymbol, hfirst⟩ := exists_symbol_of_mem hmarkets hm
    have hrow : row ∈ endpointRows collate db p := by
      rw [hrows]
      exact List.mem_cons_self
    exact (ofMarketType_plannedJob hreq hrow hactive hsymbol hfirst).2
      (h row rows active markets hrows hactive hmarkets symbol hsymbol m hm hfirst)

theorem policy_of_mem_jobsOf {stores : Stores} {now : ℤ} {x : Policy × NewJob}
    (h : x ∈ jobsOf stores now p) : x.1 = p := by
  obtain ⟨-, endpoint, rest, markets, -, -, hx⟩ := mem_jobsOf.1 h
  obtain ⟨m, -, -, rfl⟩ := mem_jobsFor.1 hx
  rfl

/-- **The market types of a run**: all jobs that need an endpoint have one of their
    policy's market type, and a source symbol of that type, exactly if for each of
    the policies the first endpoint and the first markets do. -/
theorem marketTypes_iff {now : ℤ} {s : PlanState}
    (hsound : (db.stores collate).CacheSound db.policies)
    (hrun : runPolicies (db.stores collate) now db.policies = .ok s) :
    (∀ x ∈ s.jobs, x.1.RequiresEndpoint → OfMarketType db x.1 x.2) ↔
      ∀ p ∈ db.policies, p.Runs → p.RequiresEndpoint → FirstsAgree collate db p := by
  obtain ⟨hjobs, hfound⟩ := runPolicies_jobs hsound hrun
  rw [hjobs]
  constructor
  · intro h p hp hruns hreq
    refine (ofMarketType_jobsOf_iff now hruns hreq (hfound p hp hruns)).1 fun x hx => ?_
    refine h x (List.mem_flatMap.2 ⟨p, hp, hx⟩) ?_
    rw [policy_of_mem_jobsOf hx]
    exact hreq
  · intro h x hx hreq
    obtain ⟨p, hp, hx⟩ := List.mem_flatMap.1 hx
    rw [policy_of_mem_jobsOf hx] at hreq
    have hruns := (mem_jobsOf.1 hx).1
    exact (ofMarketType_jobsOf_iff now hruns hreq (hfound p hp hruns)).2 (h p hp hruns hreq) x hx

end

/-! ### Two market types -/

/-- A ticker endpoint of binance. -/
def tickerEndpoint (id : ℤ) (marketType : String) : EndpointRow :=
  ⟨⟨id, "ticker", 1, 10000, 0, 0⟩, "binance", marketType, "ticker", true⟩

/-- A policy for the tickers of all symbols of binance. -/
def tickerPolicy (marketType : String) : Policy :=
  ⟨1, "binance", marketType, "ticker", "all", "", 60, 10, true, 3⟩

/-- A symbol with a market on binance for each of some types and source symbols. -/
def marketRow (markets : List (String × String)) : SymbolRow where
  id := 1
  symbol := "BTC"
  cmcRank := some 1
  isActive := true
  markets := some (.arr (markets.map fun m => .obj [("exchange", .str "binance"),
    ("market_type", .str m.1), ("source_symbol", .str m.2), ("status", .str "active")]))

/-- Only futures, for two policies. -/
def futuresDB : PlannerDB where
  policies := [tickerPolicy "usdt-futures", { tickerPolicy "usdt-futures" with tier := "top100" }]
  endpoints := ⟨[tickerEndpoint 2 "usdt-futures"], List.nodup_singleton _⟩
  symbols := ⟨[marketRow [("usdt-futures", "BTCUSDT")]], List.nodup_singleton _⟩
  watchlist := []

theorem marketTypes_iff_futures :
    ∃ s, runPolicies (futuresDB.stores byteOrder) 0 futuresDB.policies = .ok s ∧
      ((∀ x ∈ s.jobs, x.1.RequiresEndpoint → OfMarketType futuresDB x.1 x.2) ↔
        ∀ p ∈ futuresDB.policies, p.Runs → p.RequiresEndpoint → FirstsAgree byteOrder futuresDB p) := by
  have hok : (runPolicies (futuresDB.stores byteOrder) 0 futuresDB.policies).toOption.isSome = true := by
    decide +kernel
  obtain ⟨s, hs⟩ := Option.isSome_iff_exists.1 hok
  have hrun := toOption_eq_some.1 hs
  refine ⟨s, hrun, marketTypes_iff (.of_colon_notMem _ ?_) hrun⟩
  intro p hp
  have hexchange : p.exchange = "binance" := by
    simp only [futuresDB, List.mem_cons, List.not_mem_nil, or_false] at hp
    rcases hp with rfl | rfl
    · rfl
    · rfl
  rw [hexchange]
  decide

/-- Spot and futures; the policy is for futures. -/
def mixedDB : PlannerDB where
  policies := [tickerPolicy "usdt-futures"]
  endpoints := ⟨[tickerEndpoint 1 "spot", tickerEndpoint 2 "usdt-futures"], by decide⟩
  symbols := ⟨[marketRow [("spot", "BTC_USDT"), ("usdt-futures", "BTCUSDT")]], List.nodup_singleton _⟩
  watchlist := []

/-- The job for the endpoint and the market of the spot market. -/
def spotJob : NewJob :=
  plannedJob (tickerPolicy "usdt-futures") (tickerEndpoint 1 "spot").toEndpoint
    (scheduledBucket 0 60) ⟨1, "BTC_USDT"⟩

theorem spot_endpoint_used :
    ∃ s, runPolicies (mixedDB.stores byteOrder) 0 mixedDB.policies = .ok s ∧
      (tickerPolicy "usdt-futures", spotJob) ∈ s.jobs ∧
      (tickerPolicy "usdt-futures").RequiresEndpoint ∧
      ¬OfMarketType mixedDB (tickerPolicy "usdt-futures") spotJob := by
  have hreq : (tickerPolicy "usdt-futures").RequiresEndpoint :=
    (by decide +kernel : (endpointDataType "ticker").2 = true)
  have hendpoints : ((mixedDB.stores byteOrder).endpointsOf (tickerPolicy "usdt-futures")).toOption =
      some [(tickerEndpoint 1 "spot").toEndpoint, (tickerEndpoint 2 "usdt-futures").toEndpoint] := by
    decide +kernel
  have hsymbols : ((mixedDB.stores byteOrder).symbolsOf (tickerPolicy "usdt-futures")).toOption =
      some [⟨1, "BTC_USDT"⟩] := by
    decide +kernel
  have hok : (runPolicies (mixedDB.stores byteOrder) 0 mixedDB.policies).toOption.isSome = true := by
    decide +kernel
  obtain ⟨s, hs⟩ := Option.isSome_iff_exists.1 hok
  have hrun := toOption_eq_some.1 hs
  obtain ⟨hjobs, -⟩ := runPolicies_jobs (.singleton _ _) hrun
  refine ⟨s, hrun, ?_, hreq, ?_⟩
  · have hruns : (tickerPolicy "usdt-futures").Runs := by decide
    rw [hjobs, mixedDB, List.flatMap_singleton]
    refine mem_jobsOf.2 ⟨hruns, _, _, _, toOption_eq_some.1 hendpoints, toOption_eq_some.1 hsymbols, ?_⟩
    exact mem_jobsFor.2 ⟨_, List.mem_cons_self, by decide +kernel, rfl⟩
  · rintro ⟨⟨row, hrow, -, hfield, htype⟩, -⟩
    rw [spotJob, endpoint_id_plannedJob hreq] at hfield
    simp only [mixedDB, List.mem_cons, List.not_mem_nil, or_false] at hrow
    rcases hrow with rfl | rfl
    · exact absurd htype (by decide)
    · exact absurd (Json.int.inj (Option.some.inj hfield)) (by decide)

end Aggregator.Scheduler
