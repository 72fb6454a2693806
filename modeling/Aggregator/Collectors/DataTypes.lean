/-
  Planned data types and the adapters.

  The planner maps the data type of a policy to that of an endpoint, after trimming
  it; the collector calls `Normalize` with the data type of the job, as it is.

  * `normalize_unsupported`: no adapter knows another data type than `dataTypes`;
  * `planned_supported_iff`: a job whose endpoint data type the adapter accepts is
    not refused for its own exactly if that is not `liquidation_aggregate` and has
    no spaces around `orderbook_imbalance`;
  * `liquidation_aggregate_refused`: a planned job for liquidation aggregates is
    refused by binance.
-/
import Aggregator.Collectors.Collector
import Aggregator.Exchanges.Normalize
import Aggregator.Scheduler.PlannedJobs

namespace Aggregator.Collectors

open Aggregator.Exchanges Aggregator.Go Aggregator.Hardening Aggregator.Normalizers
  Aggregator.Scheduler

/-! ## The registry (`internal/exchanges/all`) -/

/-- What the adapters share: how requests are built and sent. -/
structure Client where
  buildRequest : EndpointRow → Job → Symbol → Except (Err Fault) Request
  execute : Request → Except (Err Fault) Response

/-- The error of a normalizer; `ErrUnsupportedDataType` is a value of its own. -/
def stopOf : Failure → Stop
  | .error text => .error
    (if text = errUnsupportedDataType then ⟨text, [.custom .unsupportedDataType]⟩ else .new text)
  | .panic text => .panic text

def adapterOf (pf : ParseFloat) (client : Client) (exchange : Exchange) : Adapter where
  buildRequest := client.buildRequest
  execute := client.execute
  normalize dataType resp job symbol :=
    (normalize pf exchange dataType resp.toExchangeResponse job symbol).mapError stopOf

def exchangeName : Exchange → String
  | .binance => "binance"
  | .okx => "okx"
  | .bybit => "bybit"
  | .bitget => "bitget"
  | .gate => "gate"
  | .mexc => "mexc"

/-- The exchange that is registered under a name. -/
def findExchange (name : String) : Option Exchange :=
  [Exchange.binance, .okx, .bybit, .bitget, .gate, .mexc].find? fun exchange =>
    exchangeName exchange = toLower (trimSpace name)

/-- `Registry.Get`. -/
def registryGet (pf : ParseFloat) (client : Client) (name : String) : Except (Err Fault) Adapter :=
  match findExchange name with
  | some exchange => .ok (adapterOf pf client exchange)
  | none =>
    .error (.new s!"exchange adapter {(toLower (trimSpace name)).quote} is not registered")

theorem registryGet_eq_ok {pf : ParseFloat} {client : Client} {name : String} {adapter : Adapter}
    (h : registryGet pf client name = .ok adapter) :
    ∃ exchange, findExchange name = some exchange ∧ adapter = adapterOf pf client exchange := by
  unfold registryGet at h
  cases hexchange : findExchange name with
  | some exchange =>
    rw [hexchange] at h
    exact ⟨exchange, rfl, (Except.ok.inj h).symm⟩
  | none =>
    rw [hexchange] at h
    cases h

theorem registryGet_eq_error {pf : ParseFloat} {client : Client} {name : String} {err : Err Fault}
    (h : registryGet pf client name = .error err) : ∃ text, err = .new text := by
  unfold registryGet at h
  cases hexchange : findExchange name with
  | some exchange =>
    rw [hexchange] at h
    cases h
  | none =>
    rw [hexchange] at h
    exact ⟨_, (Except.error.inj h).symm⟩

/-! ## Accepted data types -/

/-- `Normalize` never returns `ErrUnsupportedDataType` for the data type. -/
def Accepts (exchange : Exchange) (dataType : String) : Prop :=
  ∀ pf resp job symbol,
    normalize pf exchange dataType resp job symbol ≠ fail errUnsupportedDataType

/-- The data types that some adapter knows. -/
def dataTypes : List String :=
  ["ticker", "mark_price", "index_price", "funding", "kline", "open_interest", "long_short_ratio",
    "taker_flow", "basis", "orderbook", "orderbook_imbalance", "liquidation"]

/-- A response that every adapter gets as far as the data type with. -/
def emptyResponse : ExchangeResponse := ⟨some (.obj [("code", .str "0"), ("data", .arr [])]), 0⟩

theorem readEnvelope_emptyResponse : Okx.readEnvelope emptyResponse.body = .ok (some (.arr [])) := by
  rfl

section
variable {exchange : Exchange} {d e : String}

theorem normalize_unsupported (h : d ∉ dataTypes) (pf : ParseFloat) (job : Job) (symbol : Symbol) :
    normalize pf exchange d emptyResponse job symbol = fail errUnsupportedDataType := by
  simp only [dataTypes, List.mem_cons, List.not_mem_nil, or_false, not_or] at h
  obtain ⟨hticker, hmark, hindex, hfunding, hkline, hinterest, hratio, hflow, hbasis, hbook,
    himbalance, hliquidation⟩ := h
  unfold Exchanges.normalize
  cases exchange
  case okx =>
    dsimp only
    rw [Okx.normalize, readEnvelope_emptyResponse]
    dsimp only [bind, Except.bind]
    split <;> first | contradiction | rfl
  case binance => dsimp only; unfold Binance.normalize; split <;> first | contradiction | rfl
  case bybit => dsimp only; unfold Bybit.normalize; split <;> first | contradiction | rfl
  case bitget => dsimp only; unfold Bitget.normalize; split <;> first | contradiction | rfl
  case gate => dsimp only; unfold Gate.normalize; split <;> first | contradiction | rfl
  case mexc => dsimp only; unfold Mexc.normalize; split <;> first | contradiction | rfl

theorem mem_dataTypes_of_accepts (h : Accepts exchange d) : d ∈ dataTypes := by
  by_contra hmem
  exact h parseDecimal emptyResponse (.sample 1 d 3 0) ⟨1⟩ (normalize_unsupported hmem _ _ _)

theorem normalize_imbalance (pf : ParseFloat) (resp : ExchangeResponse) (job : Job)
    (symbol : Symbol) : normalize pf exchange "orderbook_imbalance" resp job symbol =
      normalize pf exchange "orderbook" resp job symbol := by
  cases exchange <;> rfl

/-- The planner's names for data types are also those of the adapters. -/
def Exact (d : String) : Prop :=
  trimSpace d ≠ "liquidation_aggregate" ∧
    (trimSpace d = "orderbook_imbalance" → d = "orderbook_imbalance")

instance (d : String) : Decidable (Exact d) := instDecidableAnd

theorem exact_of_mem (h : d ∈ dataTypes) : Exact d := by
  have hall : ∀ s ∈ dataTypes, Exact s := by decide +kernel
  exact hall d h

/-- What the planner does with a data type that is exact. -/
theorem accepts_of_exact (hmap : endpointDataType d = (e, true)) (haccepts : Accepts exchange e)
    (h : Exact d) : Accepts exchange d := by
  obtain ⟨haggregate, himbalance⟩ := h
  by_cases hbook : trimSpace d = "orderbook_imbalance"
  · rw [endpointDataType, if_pos hbook] at hmap
    obtain ⟨rfl, -⟩ := Prod.mk.inj hmap
    rw [himbalance hbook]
    intro pf resp job symbol
    rw [normalize_imbalance]
    exact haccepts pf resp job symbol
  · rw [endpointDataType, if_neg hbook, if_neg haggregate] at hmap
    split at hmap
    · exact absurd (Prod.mk.inj hmap).2 Bool.false_ne_true
    · obtain ⟨rfl, -⟩ := Prod.mk.inj hmap
      exact haccepts

end

/-! ## Executions -/

/-- The execution ends with `ErrUnsupportedDataType`. -/
def EndsUnsupported (c : Collector) (job : Job) : Prop :=
  ∃ err, (c.execute job).1 = .error (.error err) ∧ err.is .unsupportedDataType = true

/-- No stage but `Normalize` returns `ErrUnsupportedDataType`. -/
def OnlyNormalizes (c : Collector) : Prop :=
  ∀ job stage err, FailsAt c job stage err → stage ≠ .normalize →
    err.is .unsupportedDataType = false

theorem is_executionError (kind : Ratelimit.FailureKind) (recoverable : Bool) (err : Err Fault) :
    (executionError kind recoverable err).is .unsupportedDataType =
      err.is .unsupportedDataType := by
  simp [executionError, Err.is]

theorem is_classify (stage : Stage) (err : Err Fault) :
    (stage.classify err).is .unsupportedDataType = err.is .unsupportedDataType := by
  have hcollector : (classifyCollectorError err).is .unsupportedDataType =
      err.is .unsupportedDataType := by
    unfold classifyCollectorError
    split_ifs <;> exact is_executionError _ _ _
  cases stage with
  | request | http | normalize => exact hcollector
  | symbol | endpoint | adapter | write => exact is_executionError _ _ _

section
variable {exchange : Exchange} {d e : String} {pf : ParseFloat} {client : Client} {c : Collector}
  {job : Job}

/-- `ErrUnsupportedDataType` comes from the adapter of the exchange. -/
theorem not_endsUnsupported (hregistry : c.adapters = registryGet pf client)
    (honly : OnlyNormalizes c) (hexchange : findExchange job.exchange = some exchange)
    (haccepts : Accepts exchange job.dataType) : ¬EndsUnsupported c job := by
  rintro ⟨err, herr, his⟩
  rcases execute_error_cases herr with ⟨stage, cause, hfails, rfl⟩ | ⟨kind, recoverable, text, rfl⟩
  · rw [is_classify] at his
    by_cases hstage : stage = .normalize
    · subst hstage
      cases hfails with
      | @normalize symbol adapter resp _ hresp h =>
        obtain ⟨⟨endpoint, req, hfound, -, -⟩, -⟩ := hresp
        have hadapter := hfound.adapter
        rw [hregistry] at hadapter
        obtain ⟨other, hother, rfl⟩ := registryGet_eq_ok hadapter
        obtain rfl := Option.some.inj (hother.symm.trans hexchange)
        obtain ⟨failure, hfailure, hstop⟩ := mapError_eq_error.1 h
        cases failure with
        | panic text => cases hstop
        | error text =>
          have htext : text ≠ errUnsupportedDataType := by
            rintro rfl
            exact haccepts _ _ _ _ hfailure
          rw [stopOf, if_neg htext] at hstop
          obtain rfl := Stop.error.inj hstop
          exact absurd his (by simp [Err.new, Err.is])
    · exact absurd his (by simp [honly job stage cause hfails hstage])
  · rw [is_executionError] at his
    exact absurd his (by simp [Err.new, Err.is])

/-! ### A collector that gets as far as `Normalize` -/

/-- A policy for a data type. -/
def policyOf (exchange : Exchange) (d : String) : Policy :=
  ⟨1, exchangeName exchange, "usdt-futures", d, "all", "", 60, 10, true, 3⟩

/-- The job that is planned for it. -/
def plannedFor (exchange : Exchange) (d : String) : Job :=
  (plannedJob (policyOf exchange d) ⟨1, "endpoint", 1, 10000, 0, 0⟩ 0 ⟨1, "BTCUSDT"⟩).toJob

/-- A client whose exchange sends the empty response. -/
def emptyClient : Client where
  buildRequest _ _ _ := .ok ⟨"", ""⟩
  execute _ := .ok ⟨emptyResponse, 200, ""⟩

/-- A collector that finds everything. -/
def openCollector (adapters : String → Except (Err Fault) Adapter) : Collector where
  getByID id := .ok ⟨⟨id, "endpoint", 1, 10000, 0, 0⟩, "", "", "", true⟩
  resolveActive _ _ _ _ := .ok ⟨⟨1, "endpoint", 1, 10000, 0, 0⟩, "", "", "", true⟩
  getSymbolByID id := .ok ⟨id⟩
  adapters := adapters
  write _ _ _ := none
  hasLogs := false
  hasHealth := false

theorem adapters_openCollector (adapters : String → Except (Err Fault) Adapter) :
    (openCollector adapters).adapters = adapters := rfl

theorem onlyNormalizes_openCollector (pf : ParseFloat) :
    OnlyNormalizes (openCollector (registryGet pf emptyClient)) := by
  intro job stage err hfails hstage
  have hnew : ∀ {text}, (Err.new text : Err Fault).is .unsupportedDataType = false := by
    simp [Err.new, Err.is]
  cases hfails with
  | symbol h => cases h
  | endpoint hsymbol hsource h =>
    rw [Collector.endpointForJob] at h
    split at h
    · cases h
    · split at h
      · obtain rfl := Except.error.inj h
        exact hnew
      · dsimp only at h
        split at h
        · obtain rfl := Except.error.inj h
          exact hnew
        · cases h
  | adapter hsymbol hsource hendpoint h =>
    rw [adapters_openCollector] at h
    obtain ⟨text, rfl⟩ := registryGet_eq_error h
    exact hnew
  | request hfound h =>
    have hadapter := hfound.adapter
    rw [adapters_openCollector] at hadapter
    obtain ⟨exchange, -, rfl⟩ := registryGet_eq_ok hadapter
    cases h
  | http hfound hreq h =>
    have hadapter := hfound.adapter
    rw [adapters_openCollector] at hadapter
    obtain ⟨exchange, -, rfl⟩ := registryGet_eq_ok hadapter
    cases h
  | normalize hresp h => exact absurd rfl hstage
  | write hresp hresult h => cases h

theorem findExchange_exchangeName : findExchange (exchangeName exchange) = some exchange := by
  cases exchange <;> decide +kernel

/-- The planner maps a data type that is not exact to one of two others. -/
theorem endpoint_of_not_exact (hmap : endpointDataType d = (e, true)) (h : ¬Exact d) :
    e ∈ ["orderbook", "liquidation"] := by
  unfold endpointDataType at hmap
  by_cases hbook : trimSpace d = "orderbook_imbalance"
  · rw [if_pos hbook] at hmap
    obtain ⟨rfl, -⟩ := Prod.mk.inj hmap
    exact List.mem_cons_self
  · have haggregate : trimSpace d = "liquidation_aggregate" := by
      by_contra hne
      exact h ⟨hne, fun hbook' => absurd hbook' hbook⟩
    rw [if_neg hbook, if_pos haggregate] at hmap
    obtain ⟨rfl, -⟩ := Prod.mk.inj hmap
    exact List.mem_cons_of_mem _ List.mem_cons_self

/-- Such a job names its endpoint. -/
theorem endpointID_plannedFor (hmap : endpointDataType d = (e, true)) (h : ¬Exact d) :
    (runtimeMetadataFromJob (plannedFor exchange d)).endpointID = 1 := by
  have hall : ∀ e ∈ ["orderbook", "liquidation"], (runtimeMetadataFromJob
      { Job.sample 1 "" 3 0 with metadata := some (plannerMetadata (policyOf .binance "")
          ⟨1, "endpoint", 1, 10000, 0, 0⟩ e true) }).endpointID = 1 := by
    decide +kernel
  have hmetadata : (plannedFor exchange d).metadata = some (plannerMetadata (policyOf .binance "")
      ⟨1, "endpoint", 1, 10000, 0, 0⟩ e true) := by
    rw [plannedFor, toJob_plannedJob, policyOf, hmap]
    rfl
  rw [← hall e (endpoint_of_not_exact hmap h)]
  unfold runtimeMetadataFromJob
  rw [hmetadata]

/-- A data type that is not exact is refused by every adapter. -/
theorem endsUnsupported_of_not_exact (hmap : endpointDataType d = (e, true)) (h : ¬Exact d) :
    EndsUnsupported (openCollector (registryGet pf emptyClient)) (plannedFor exchange d) := by
  have hmem : d ∉ dataTypes := fun hmem => h (exact_of_mem hmem)
  have hjob := toJob_plannedJob (policyOf exchange d) ⟨1, "endpoint", 1, 10000, 0, 0⟩ 0 ⟨1, "BTCUSDT"⟩
  have hsource : (plannedFor exchange d).sourceSymbol = "BTCUSDT" := by
    rw [plannedFor, hjob]
    rfl
  have htype : (plannedFor exchange d).dataType = d := by
    rw [plannedFor, hjob]
    rfl
  have hexchange : (plannedFor exchange d).exchange = exchangeName exchange := by
    rw [plannedFor, hjob]
    rfl
  have hid : 0 < (runtimeMetadataFromJob (plannedFor exchange d)).endpointID := by
    rw [endpointID_plannedFor hmap h]
    exact one_pos
  have hadapter : (openCollector (registryGet pf emptyClient)).adapters
      (plannedFor exchange d).exchange = .ok (adapterOf pf emptyClient exchange) := by
    rw [adapters_openCollector, hexchange]
    unfold registryGet
    rw [findExchange_exchangeName]
  have hfound := Found.mk rfl (by rw [hsource]; decide) (Collector.endpointForJob_of_id hid) hadapter
  have hresp : Answered (openCollector (registryGet pf emptyClient)) (plannedFor exchange d)
      ⟨(plannedFor exchange d).symbolID⟩ (adapterOf pf emptyClient exchange)
      ⟨emptyResponse, 200, ""⟩ :=
    ⟨⟨_, _, hfound, rfl, rfl⟩, by decide⟩
  have hnormalize : (adapterOf pf emptyClient exchange).normalize (plannedFor exchange d).dataType
      ⟨emptyResponse, 200, ""⟩ (plannedFor exchange d) ⟨(plannedFor exchange d).symbolID⟩ =
        .error (.error ⟨errUnsupportedDataType, [.custom .unsupportedDataType]⟩) := by
    rw [htype, adapterOf]
    dsimp only
    rw [normalize_unsupported hmem]
    rfl
  refine ⟨_, execute_of_failsAt (.normalize hresp hnormalize), ?_⟩
  rw [is_classify]
  decide

end

/-- **Planned data types**: if the adapter of an exchange accepts the data type of
    the endpoint, it accepts that of the job, and executions of such jobs never end
    with `ErrUnsupportedDataType`, exactly if the data type is exact. -/
theorem planned_supported_iff {exchange : Exchange} {d e : String}
    (hmap : endpointDataType d = (e, true)) (haccepts : Accepts exchange e) :
    (Accepts exchange d ↔ Exact d) ∧
      ((∀ (pf : ParseFloat) (client : Client) (c : Collector) (p : Policy) (endpoint : Endpoint)
          (bucket : ℤ) (m : SymbolMarket), c.adapters = registryGet pf client → OnlyNormalizes c →
        p.dataType = d → findExchange p.exchange = some exchange →
          ¬EndsUnsupported c (plannedJob p endpoint bucket m).toJob) ↔ Exact d) := by
  refine ⟨⟨fun h => exact_of_mem (mem_dataTypes_of_accepts h), accepts_of_exact hmap haccepts⟩,
    ?_, ?_⟩
  · intro h
    by_contra hnot
    exact h parseDecimal emptyClient (openCollector (registryGet parseDecimal emptyClient))
      (policyOf exchange d) ⟨1, "endpoint", 1, 10000, 0, 0⟩ 0 ⟨1, "BTCUSDT"⟩
      (adapters_openCollector _) (onlyNormalizes_openCollector parseDecimal) rfl findExchange_exchangeName
      (endsUnsupported_of_not_exact hmap hnot)
  · intro h pf client c p endpoint bucket m hregistry honly htype hexchange
    have hjob := toJob_plannedJob p endpoint bucket m
    have hfind : findExchange (plannedJob p endpoint bucket m).exchange = some exchange := by
      rw [hjob]
      exact hexchange
    have haccepts' : Accepts exchange (plannedJob p endpoint bucket m).dataType := by
      rw [hjob]
      subst htype
      exact accepts_of_exact hmap haccepts h
    exact not_endsUnsupported hregistry honly hfind haccepts'

/-! ## Data types that are accepted -/

theorem unmarshal_ne_unsupported {α : Type} (raw : Option Json) (decode : Json → Option α)
    (context : String) : unmarshal raw decode context ≠ fail errUnsupportedDataType := by
  unfold unmarshal
  cases raw.bind decode with
  | some a => exact fun h => by cases h
  | none =>
    intro h
    have htext := Failure.error.inj (Except.error.inj h)
    -- the two texts end differently
    have hend := congrArg (fun s : String => s.toList.getLast?) htext
    have hjson : (toString ": json").toList.getLast? = some 'n' := by decide
    have hunsupported : errUnsupportedDataType.toList.getLast? = some 'e' := by decide
    simp only [String.toList_append, List.getLast?_append, hjson, hunsupported, Option.some_or] at hend
    exact absurd (Option.some.inj hend) (by decide)

theorem checked_ne_unsupported {α : Type} {m : Except String α}
    (h : m ≠ .error errUnsupportedDataType) : checked m ≠ fail errUnsupportedDataType := by
  cases m with
  | error e => exact fun heq => h (congrArg Except.error (Failure.error.inj (Except.error.inj heq)))
  | ok a => exact fun heq => by cases heq

theorem validateOptionals_ne {e : String} {checks : List (String × Option ℚ)}
    (h : ∀ name ∈ checks.map Prod.fst, s!"{name} must be non-negative" ≠ e) :
    validateOptionals checks ≠ .error e := by
  refine forM_ne_error fun c hc => ?_
  have hname := h c.1 (List.mem_map_of_mem hc)
  obtain ⟨name, value⟩ := c
  dsimp only at hname ⊢
  unfold validateOptionalNonNegative validateNonNegative
  split
  · exact fun heq => by cases heq
  · split_ifs
    · exact fun heq => hname (Except.error.inj heq)
    · exact fun heq => by cases heq

/-- The texts of the checks of an order book are others. -/
theorem validateOrderbookImbalance_ne_unsupported (item : NormalizedOrderbookImbalance) :
    validateOrderbookImbalance item ≠ .error errUnsupportedDataType := by
  have hsource : ∀ source, validateSource source ≠ .error errUnsupportedDataType := by
    intro source
    unfold validateSource
    split_ifs <;> decide
  have htime : ∀ t, validateTimestamp "snapshot_time" t ≠ .error errUnsupportedDataType := by
    intro t
    unfold validateTimestamp
    split_ifs <;> decide
  have hnames : ∀ name ∈ ["mid_price", "bid_notional", "ask_notional", "bid_depth_usd",
      "ask_depth_usd", "bid_depth_1pct_usd", "ask_depth_1pct_usd", "bid_depth_2pct_usd",
      "ask_depth_2pct_usd", "bid_depth_5pct_usd", "ask_depth_5pct_usd"],
      s!"{name} must be non-negative" ≠ errUnsupportedDataType := by
    decide
  unfold validateOrderbookImbalance
  refine bind_ne_error (hsource _) fun _ => bind_ne_error (htime _) fun _ => ?_
  split_ifs
  · exact bind_ne_error (by decide) fun _ => validateOptionals_ne hnames
  · exact validateOptionals_ne hnames

theorem bestPrices_ne_error {α : Type} (price : α → ℚ) (bids asks : List (List α)) (text : String) :
    bestPrices price bids asks ≠ fail text := by
  have hbest : ∀ levels : List (List α), bestPrice price levels ≠ fail text := by
    intro levels
    unfold bestPrice
    split <;> exact fun h => by cases h
  unfold bestPrices
  split_ifs
  · exact bind_ne_error (hbest _) fun _ => bind_ne_error (hbest _) fun _ h => by cases h
  · exact fun h => by cases h

theorem accepts_orderbook : Accepts .binance "orderbook" := fun _ _ _ _ =>
  bind_ne_error (unmarshal_ne_unsupported _ _ _) fun _ =>
    bind_ne_error (bestPrices_ne_error _ _ _ _) fun _ =>
      bind_ne_error (checked_ne_unsupported (validateOrderbookImbalance_ne_unsupported _))
        fun _ h => by cases h

/-- The adapter knows the job's name for an order book, which is not the endpoint's. -/
theorem planned_supported_iff_imbalance :
    endpointDataType "orderbook_imbalance" = ("orderbook", true) ∧
      Accepts .binance "orderbook_imbalance" ∧
      ∀ (pf : ParseFloat) (client : Client) (c : Collector) (p : Policy) (endpoint : Endpoint)
        (bucket : ℤ) (m : SymbolMarket), c.adapters = registryGet pf client → OnlyNormalizes c →
        p.dataType = "orderbook_imbalance" → findExchange p.exchange = some .binance →
          ¬EndsUnsupported c (plannedJob p endpoint bucket m).toJob := by
  have hmap : endpointDataType "orderbook_imbalance" = ("orderbook", true) := by decide +kernel
  have hexact : Exact "orderbook_imbalance" := by decide +kernel
  have hsupported := planned_supported_iff hmap accepts_orderbook
  exact ⟨hmap, hsupported.1.2 hexact, hsupported.2.2 hexact⟩

theorem liquidation_aggregate_refused :
    endpointDataType "liquidation_aggregate" = ("liquidation", true) ∧
      Accepts .binance "liquidation" ∧
      EndsUnsupported (openCollector (registryGet parseDecimal emptyClient))
        (plannedFor .binance "liquidation_aggregate") := by
  have hmap : endpointDataType "liquidation_aggregate" = ("liquidation", true) := by decide +kernel
  have hexact : ¬Exact "liquidation_aggregate" := by decide +kernel
  have haccepts : Accepts .binance "liquidation" := fun _ _ _ _ =>
    bind_ne_error (unmarshal_ne_unsupported _ _ _) fun _ h => by cases h
  exact ⟨hmap, haccepts, endsUnsupported_of_not_exact hmap hexact⟩

end Aggregator.Collectors
