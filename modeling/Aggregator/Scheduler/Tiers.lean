/-
  The symbols of the tier `top100`.

  The tier is meant to be the first 100 active symbols.  The symbols are first
  filtered by whether they have a market on the exchange, and then limited, so
  that each of the first 100 that has none makes room for one that is not among
  them.

  * `symbolCacheKey_top100`: no other policy has the cache key of a policy of this
    tier;
  * `top100_iff`: only the first 100 active symbols are scheduled exactly if all of
    them have a market on the exchange or no other symbol has one;
  * `later_symbol_scheduled`: symbol 101 is scheduled when the first one has no
    market.
-/
import Aggregator.Lib.Limit
import Aggregator.Scheduler.Registry

namespace Aggregator.Scheduler

open Aggregator.Go Aggregator.Symbols

/-- The policy has the tier `top100`. -/
def Policy.Top100 (p : Policy) : Prop := toLower (trimSpace p.tier) = "top100"

/-! ## The cache key -/

theorem Policy.Top100.limit {p : Policy} (h : p.Top100) : symbolLimitForTier p.tier = 100 :=
  if_pos h

theorem Policy.Top100.colon_notMem {p : Policy} (h : p.Top100) : ':' ∉ p.tier.toList := by
  intro hmem
  have hlower : ':' ∈ (toLower (trimSpace p.tier)).toList := by
    rw [toLower, String.toList_ofList]
    exact List.mem_map.2 ⟨':', mem_trimSpace hmem (by decide), by decide⟩
  rw [h] at hlower
  exact absurd hlower (by decide)

/-- **The cache key of the tier `top100`** is that of policies with the same tier
    and exchange only. -/
theorem symbolCacheKey_top100 {p q : Policy} (hp : p.Top100)
    (h : p.symbolCacheKey = q.symbolCacheKey) : p.tier = q.tier ∧ p.exchange = q.exchange := by
  have hlist := congrArg String.toList h
  simp only [Policy.symbolCacheKey, String.intercalate_cons_cons, String.intercalate_singleton,
    String.toList_append, List.append_assoc] at hlist
  rw [hp.limit] at hlist
  rcases symbolLimitForTier_cases q.tier with ⟨hlimit, hq⟩ | hlimit
  · rw [hlimit] at hlist
    obtain ⟨htier, hrest⟩ := append_sep_inj hp.colon_notMem (Policy.Top100.colon_notMem hq) hlist
    exact ⟨String.toList_inj.1 htier, String.toList_inj.1 (List.append_cancel_right hrest)⟩
  · -- the keys end differently
    have h100 : (toString (100 : ℤ)).toList = ['1', '0', '0'] := by decide
    have h0 : (toString (0 : ℤ)).toList = ['0'] := by decide
    rw [hlimit, h100, h0] at hlist
    have hend := congrArg (fun l => (List.reverse l).take 2) hlist
    simp at hend

/-! ## What is scheduled -/

section
variable (collate : String → String → Bool) (table : SymbolTable) (exchange : String)

/-- Some run of the planner on the table makes a job for the symbol, for a policy
    of the exchange with the tier `top100`. -/
def Schedules (id : ℤ) : Prop :=
  ∃ (db : PlannerDB) (now : ℤ) (s : PlanState), db.symbols = table ∧
    runPolicies (db.stores collate) now db.policies = .ok s ∧
    ∃ x ∈ s.jobs, x.1.exchange = exchange ∧ x.1.Top100 ∧ x.2.symbolID = id

/-- The first 100 active symbols. -/
def topIDs : List ℤ := ((activeRows collate table).take 100).map (·.id)

/-- All of the first 100 active symbols have a market that is used, or none of the
    others has one. -/
def TopListed : Prop :=
  ∀ active, listActiveSymbols collate table = .ok active →
    (∀ symbol ∈ active.take 100, (firstMarket (toLower (trimSpace exchange)) symbol).isSome) ∨
      ∀ symbol ∈ active.drop 100, firstMarket (toLower (trimSpace exchange)) symbol = none

variable {collate table exchange}

/-- The symbols of a policy with the tier. -/
theorem symbolsOf_top100 (hexchange : toLower (trimSpace exchange) ≠ "") {db : PlannerDB}
    {p : Policy} (hp : p.Top100) (hpe : p.exchange = exchange) :
    (db.stores collate).symbolsOf p = (listActiveSymbols collate db.symbols).map fun active =>
      (active.filterMap (firstMarket (toLower (trimSpace exchange)))).take 100 := by
  rw [Stores.symbolsOf, PlannerDB.askSymbols_stores, hpe, hp.limit,
    listSymbolMarketsByTier_top100 hp hexchange]
  cases listActiveSymbols collate db.symbols with
  | error e => rfl
  | ok active => rfl

theorem topIDs_eq {active : List Symbol} (h : listActiveSymbols collate table = .ok active) :
    topIDs collate table = (active.take 100).map (·.id) := by
  rw [topIDs, List.map_take, List.map_take, listActiveSymbols_ids h]

/-- A policy with the tier, for one endpoint. -/
def topPolicy (exchange : String) : Policy :=
  ⟨1, exchange, "futures", "ticker", "top100", "", 60, 10, true, 3⟩

def topEndpoint (exchange : String) : EndpointRow :=
  ⟨⟨7, "ticker", 1, 10000, 0, 0⟩, toLower (trimSpace exchange), "futures", "ticker", true⟩

/-- A database with the table in which only that policy is planned. -/
def topDB (table : SymbolTable) (exchange : String) : PlannerDB where
  policies := [topPolicy exchange]
  endpoints := ⟨[topEndpoint exchange], List.nodup_singleton _⟩
  symbols := table
  watchlist := []

theorem top100_topPolicy (exchange : String) : (topPolicy exchange).Top100 :=
  (by decide +kernel : toLower (trimSpace "top100") = "top100")

theorem askEndpoints_topDB (hexchange : toLower (trimSpace exchange) ≠ "") :
    ((topDB table exchange).stores collate).askEndpoints (topPolicy exchange) =
      .ok (some [(topEndpoint exchange).toEndpoint]) := by
  have htype : endpointDataType "ticker" = ("ticker", true) := by decide +kernel
  have htrim : trimSpace "ticker" = "ticker" := by decide +kernel
  have hempty : ¬(toLower (trimSpace exchange) = "" ∨ "ticker" = "") := by simp [hexchange]
  rw [PlannerDB.askEndpoints_stores]
  simp only [topPolicy, htype, listActiveByExchangeDataType, htrim, if_neg hempty]
  simp [activeEndpoints, topDB, topEndpoint]

/-- Every symbol of the tier is scheduled. -/
theorem schedules_of_mem (hexchange : toLower (trimSpace exchange) ≠ "") {active : List Symbol}
    (hactive : listActiveSymbols collate table = .ok active) {m : SymbolMarket}
    (hm : m ∈ (active.filterMap (firstMarket (toLower (trimSpace exchange)))).take 100) :
    Schedules collate table exchange m.symbolID := by
  have hask : ((topDB table exchange).stores collate).askEndpoints (topPolicy exchange) = _ :=
    askEndpoints_topDB hexchange
  have hsymbols : ((topDB table exchange).stores collate).symbolsOf (topPolicy exchange) = _ :=
    symbolsOf_top100 hexchange (top100_topPolicy exchange) rfl
  rw [show (topDB table exchange).symbols = table from rfl, hactive] at hsymbols
  have hanswers : ∀ p ∈ [topPolicy exchange],
      (∃ a, ((topDB table exchange).stores collate).askEndpoints p = .ok a) ∧
        ∃ a, ((topDB table exchange).stores collate).askSymbols p = .ok a := by
    intro p hp
    obtain rfl := List.mem_singleton.1 hp
    obtain ⟨a, ha, -⟩ := map_eq_ok hsymbols
    exact ⟨⟨_, hask⟩, a, ha⟩
  have hruns : ∃ s, runPolicies ((topDB table exchange).stores collate) 0 [topPolicy exchange] =
      .ok s := runPolicies_isOk hanswers
  obtain ⟨s, hs⟩ := hruns
  refine ⟨topDB table exchange, 0, s, rfl, hs, ?_⟩
  obtain ⟨hjobs, -⟩ := runPolicies_jobs (.singleton _ _) hs
  have hendpoints : ((topDB table exchange).stores collate).endpointsOf (topPolicy exchange) =
      .ok [(topEndpoint exchange).toEndpoint] := by
    have hreq : (endpointDataType (topPolicy exchange).dataType).2 = true :=
      (by decide +kernel : (endpointDataType "ticker").2 = true)
    rw [Stores.endpointsOf, if_pos hreq, hask]
    rfl
  have hruns : (topPolicy exchange).Runs := by simp [Policy.Runs, topPolicy]
  rw [List.flatMap_singleton, jobsOf, if_pos hruns, hendpoints, hsymbols] at hjobs
  have hblank : trimSpace m.sourceSymbol ≠ "" := by
    obtain ⟨symbol, -, hfirst⟩ := List.mem_filterMap.1 (List.mem_of_mem_take hm)
    exact (firstMarket_id hfirst).2
  refine ⟨(topPolicy exchange, plannedJob (topPolicy exchange) (topEndpoint exchange).toEndpoint
    (scheduledBucket 0 60) m), ?_, rfl, top100_topPolicy exchange, ?_⟩
  · rw [hjobs]
    exact mem_jobsFor.2 ⟨m, hm, hblank, rfl⟩
  · rw [toJob_plannedJob]
    rfl

/-- A job for a policy with the tier is for a symbol that the store lists. -/
theorem exists_of_schedules {id : ℤ} (h : Schedules collate table exchange id) :
    ∃ active, toLower (trimSpace exchange) ≠ "" ∧ listActiveSymbols collate table = .ok active ∧
      ∃ m ∈ (active.filterMap (firstMarket (toLower (trimSpace exchange)))).take 100,
        m.symbolID = id := by
  obtain ⟨db, now, s, rfl, hrun, x, hx, hxe, htop, rfl⟩ := h
  have hsound : ∀ p : Policy, p.Top100 → ∀ q ∈ db.policies, p.symbolCacheKey = q.symbolCacheKey →
      (db.stores collate).askSymbols p = (db.stores collate).askSymbols q := by
    intro p hp q _ hkey
    obtain ⟨htier, hexch⟩ := symbolCacheKey_top100 hp hkey
    rw [PlannerDB.askSymbols_stores, PlannerDB.askSymbols_stores, htier, hexch]
  obtain ⟨markets, hmarkets, m, hm, hid⟩ := symbol_of_job hsound hrun x hx htop
  by_cases hexchange : toLower (trimSpace exchange) = ""
  · -- the store refuses an exchange without a name
    have hrefuse : (db.stores collate).symbolsOf x.1 = .error "tier and exchange are required" := by
      rw [Stores.symbolsOf, PlannerDB.askSymbols_stores, hxe, listSymbolMarketsByTier,
        if_pos (.inr hexchange)]
      rfl
    rw [hrefuse] at hmarkets
    cases hmarkets
  · rw [symbolsOf_top100 hexchange htop hxe] at hmarkets
    obtain ⟨active, hactive, rfl⟩ := map_eq_ok hmarkets
    exact ⟨active, hexchange, hactive, m, hm, hid.symm⟩

/-- **The tier `top100`** has only the first 100 active symbols exactly if they all
    have a market on the exchange or no other symbol has one.  There is no symbol
    for an exchange without a name. -/
theorem top100_iff :
    (∀ id, Schedules collate table exchange id → id ∈ topIDs collate table) ↔
      toLower (trimSpace exchange) = "" ∨ TopListed collate table exchange := by
  have hnodup : ∀ {active}, listActiveSymbols collate table = .ok active →
      (active.map fun symbol : Symbol => symbol.id).Nodup := by
    intro active hactive
    rw [listActiveSymbols_ids hactive]
    exact activeRows_ids_nodup collate table
  have hiff := fun {active} (hactive : listActiveSymbols collate table = .ok active) =>
    take_filterMap_iff (f := firstMarket (toLower (trimSpace exchange))) (n := 100)
      (fun _ _ h => (firstMarket_id h).1) (hnodup hactive)
  constructor
  · intro h
    refine or_iff_not_imp_left.2 fun hexchange active hactive => ?_
    refine (hiff hactive).1 fun m hm => ?_
    rw [← topIDs_eq hactive]
    exact h m.symbolID (schedules_of_mem hexchange hactive hm)
  · intro hlisted id hid
    obtain ⟨active, hexchange, hactive, m, hm, rfl⟩ := exists_of_schedules hid
    rw [topIDs_eq hactive]
    exact (hiff hactive).2 (hlisted.resolve_left hexchange active hactive) m hm

end

/-! ### A first symbol without a market -/

/-- The symbol of a rank, with a market on binance unless it is the first. -/
def rankedRow (rank : ℕ) : SymbolRow where
  id := rank
  symbol := "S" ++ toString rank
  cmcRank := some rank
  isActive := true
  markets := if rank = 1 then none else some (.arr [.obj [("exchange", .str "binance"),
    ("market_type", .str "futures"), ("source_symbol", .str "SUSDT"), ("status", .str "active")]])

/-- The symbols with some ranks. -/
def rankedTable (ranks : List ℕ) (h : ranks.Nodup) : SymbolTable :=
  ⟨ranks.map rankedRow, by
    rw [List.map_map]
    exact h.map fun a b hab => Int.ofNat.inj hab⟩

/-- 101 symbols. -/
def fullTable : SymbolTable := rankedTable ((List.range 101).map (· + 1)) (by decide)

theorem later_symbol_scheduled :
    Schedules byteOrder fullTable "binance" 101 ∧ 101 ∉ topIDs byteOrder fullTable := by
  have hmem : (listActiveSymbols byteOrder fullTable).toOption.map (fun active =>
      decide (⟨101, "SUSDT"⟩ ∈ (active.filterMap (firstMarket "binance")).take 100)) =
        some true := by decide +kernel
  obtain ⟨active, hactive, hmem⟩ := Option.map_eq_some_iff.1 hmem
  have hexchange : toLower (trimSpace "binance") = "binance" := by decide +kernel
  have hne : toLower (trimSpace "binance") ≠ "" := by
    rw [hexchange]
    decide
  have hmem : ⟨101, "SUSDT"⟩ ∈
      (active.filterMap (firstMarket (toLower (trimSpace "binance")))).take 100 := by
    rw [hexchange]
    exact of_decide_eq_true hmem
  have hnot : 101 ∉ topIDs byteOrder fullTable := by decide +kernel
  exact ⟨schedules_of_mem hne (toOption_eq_some.1 hactive) hmem, hnot⟩

end Aggregator.Scheduler
