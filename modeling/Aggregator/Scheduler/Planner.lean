/-
  The planner (`internal/scheduler/planner.go`, `policies.go`).

  A run asks its stores for the active policies and, policy by policy, for
  endpoints and symbols, makes a job for each symbol and inserts all jobs in one
  call.  The stores are functions that answer or fail; the two caches are those
  of the source, keyed by a text, in which a nil slice counts as absent.  Each
  job is kept with the policy it was made for.

  * `runPolicies_of_answers`: a run depends on the time through the buckets of the
    policies only;
  * `runPolicies_sorted`: jobs are made in the order of the policies;
  * `runAt_idempotent`: a second run for the same buckets changes nothing, and
    the first one keeps, for each key, the job with the smallest priority number.
-/
import Aggregator.Scheduler.Insert

namespace Aggregator.Scheduler

open Aggregator.Go

/-- A row of `derivative_collection_policies`. -/
structure Policy where
  id : ℤ
  exchange : String
  marketType : String
  dataType : String
  tier : String
  period : String
  intervalSeconds : ℤ
  priority : ℤ
  enabled : Bool
  maxRetry : ℤ
deriving DecidableEq, Repr

structure Endpoint where
  id : ℤ
  name : String
  requestWeight : ℤ
  timeoutMS : ℤ
  rateLimitPerSecond : ℚ
  rateLimitPerMinute : ℤ
deriving DecidableEq, Repr

structure SymbolMarket where
  symbolID : ℤ
  sourceSymbol : String
deriving DecidableEq, Repr

/-- A slice, `none` being the nil slice. -/
abbrev Slice (α : Type) := Option (List α)

def symbolLimitForTier (tier : String) : ℤ :=
  if toLower (trimSpace tier) = "top100" then 100 else 0

/-- The data type of the endpoint, and whether the job needs one. -/
def endpointDataType (dataType : String) : String × Bool :=
  if trimSpace dataType = "orderbook_imbalance" then ("orderbook", true)
  else if trimSpace dataType = "liquidation_aggregate" then ("liquidation", true)
  else if trimSpace dataType = "aggregated_snapshot" then ("", false)
  else (dataType, true)

/-- What the planner asks for. -/
structure Stores where
  listActivePolicies : Except String (List Policy)
  listActiveByExchangeDataType : String → String → Except String (Slice Endpoint)
  listSymbolMarketsByTier : String → String → ℤ → Except String (Slice SymbolMarket)

/-- How often a policy was skipped, and the reason given first. -/
structure Skipped where
  key : String
  count : ℤ
  reason : String
deriving DecidableEq, Repr

def Skipped.again (s : Skipped) : Skipped := { s with count := s.count + 1 }

theorem Skipped.again_key (s : Skipped) : s.again.key = s.key := rfl

structure PlanResult where
  attemptedJobs : ℤ
  insertedJobs : ℤ
  skipped : Table Skipped.key

def newPlanResult : PlanResult := ⟨0, 0, Table.empty⟩

def policyKey (policy : Policy) : String :=
  ":".intercalate
    [policy.exchange, policy.marketType, policy.dataType, policy.tier, policy.period]

/-- What a run has collected so far. -/
structure PlanState where
  result : PlanResult
  endpointCache : String → Slice Endpoint
  symbolCache : String → Slice SymbolMarket
  jobs : List (Policy × NewJob)

namespace PlanState

def init : PlanState := ⟨newPlanResult, fun _ => none, fun _ => none, []⟩

def skip (s : PlanState) (policy : Policy) (reason : String) : PlanState :=
  { s with
    result := { s.result with
      skipped := s.result.skipped.upsert ⟨policyKey policy, 1, reason⟩ Skipped.again
        Skipped.again_key } }

end PlanState

/-- A number of type `float64` as JSON. -/
def jsonFloat (q : ℚ) : Json := if q.den = 1 then .int q.num else .dec q

def plannerMetadata (policy : Policy) (endpoint : Endpoint) (endpointDataType : String)
    (requiresEndpoint : Bool) : Json :=
  .obj ([("policy_id", .int policy.id), ("market_type", .str policy.marketType),
      ("requires_endpoint", .bool requiresEndpoint)] ++
    if requiresEndpoint then
      [("endpoint_id", .int endpoint.id), ("endpoint_name", .str endpoint.name),
        ("endpoint_data_type", .str endpointDataType),
        ("request_weight", .int endpoint.requestWeight), ("timeout_ms", .int endpoint.timeoutMS),
        ("rate_limit_per_second", jsonFloat endpoint.rateLimitPerSecond),
        ("rate_limit_per_minute", .int endpoint.rateLimitPerMinute)]
    else [])

/-- The job for a symbol; a job of the planner has no mode, gap or checkpoint. -/
def plannedJob (policy : Policy) (endpoint : Endpoint) (bucket : ℤ) (market : SymbolMarket) :
    NewJob where
  toJob :=
    let (dataType, requiresEndpoint) := endpointDataType policy.dataType
    .planned 0 policy.exchange policy.dataType policy.tier market.symbolID market.sourceSymbol
      policy.period policy.priority policy.maxRetry
      (plannerMetadata policy endpoint dataType requiresEndpoint) bucket
  jobMode := ""
  parentGapID := 0
  backfillCheckpoint := none

/-- `cache[key]` or, if that is nil, the answer of the store, which is cached. -/
def lookup {α : Type} (cache : String → Slice α) (key : String) (ask : Except String (Slice α)) :
    Except String (List α × (String → Slice α)) :=
  match cache key with
  | some items => .ok (items, cache)
  | none => ask.map fun items =>
    (items.getD [], fun k => if k = key then items else cache k)

/-- The endpoint of a job that needs none. -/
def internalEndpoint : Endpoint := ⟨0, "internal", 1, 10000, 0, 0⟩

def findEndpoints (stores : Stores) (policy : Policy) (s : PlanState) :
    Except String (List Endpoint × PlanState) :=
  let (dataType, requiresEndpoint) := endpointDataType policy.dataType
  if requiresEndpoint then
    (lookup s.endpointCache (policy.exchange ++ ":" ++ dataType)
      (stores.listActiveByExchangeDataType policy.exchange dataType)).map
        fun (items, cache) => (items, { s with endpointCache := cache })
  else .ok ([internalEndpoint], s)

def findSymbols (stores : Stores) (policy : Policy) (s : PlanState) :
    Except String (List SymbolMarket × PlanState) :=
  let limit := symbolLimitForTier policy.tier
  (lookup s.symbolCache (":".intercalate [policy.tier, policy.exchange, toString limit])
    (stores.listSymbolMarketsByTier policy.tier policy.exchange limit)).map
      fun (items, cache) => (items, { s with symbolCache := cache })

/-- The body of the loop over symbols. -/
def addJob (policy : Policy) (endpoint : Endpoint) (bucket : ℤ) (s : PlanState)
    (market : SymbolMarket) : PlanState :=
  if trimSpace market.sourceSymbol = "" then s.skip policy "symbol missing source_symbol"
  else { s with jobs := s.jobs ++ [(policy, plannedJob policy endpoint bucket market)] }

/-- The body of the loop over policies.  An error comes with the result so far. -/
def runPolicy (stores : Stores) (now : ℤ) (s : PlanState) (policy : Policy) :
    Except (PlanResult × String) PlanState :=
  if !policy.enabled || policy.intervalSeconds ≤ 0 then
    .ok (s.skip policy "policy disabled or interval invalid")
  else do
    let (endpoints, s) ← (findEndpoints stores policy s).mapError (s.result, ·)
    match endpoints with
    | [] => return s.skip policy "no active endpoint for data type"
    | endpoint :: _ =>
      let (markets, s) ← (findSymbols stores policy s).mapError (s.result, ·)
      if markets.isEmpty then return s.skip policy "no symbols in tier for exchange"
      else
        let bucket := scheduledBucket now policy.intervalSeconds
        return markets.foldl (addJob policy endpoint bucket) s

def runPolicies (stores : Stores) (now : ℤ) (policies : List Policy) :
    Except (PlanResult × String) PlanState :=
  policies.foldlM (runPolicy stores now) .init

/-- `RunAt`: the result, the error if any, and the database.  `dbNow` is the
    database's `now()`, and `fault` an error of the call that inserts the jobs. -/
def runAt (stores : Stores) (now dbNow : ℤ) (fault : Option String) (db : DB) :
    (PlanResult × Option String) × DB :=
  match stores.listActivePolicies with
  | .error e => ((newPlanResult, some e), db)
  | .ok policies =>
    match runPolicies stores now policies with
    | .error (result, e) => ((result, some e), db)
    | .ok s =>
      let jobs := s.jobs.map Prod.snd
      let result := { s.result with attemptedJobs := jobs.length }
      if jobs.isEmpty then ((result, none), db)
      else
        match fault, db.insertJobs jobs dbNow with
        | some e, _ => ((result, some e), db)
        | none, .error e => ((result, some e), db)
        | none, .ok (inserted, db) => (({ result with insertedJobs := inserted }, none), db)

/-! ## Two runs -/

/-- Every answer of these stores is the answer of the others; a query may
    fail. -/
structure Stores.Repeats (stores' stores : Stores) : Prop where
  policies : ∀ a, stores'.listActivePolicies = .ok a → stores.listActivePolicies = .ok a
  endpoints : ∀ e d a, stores'.listActiveByExchangeDataType e d = .ok a →
    stores.listActiveByExchangeDataType e d = .ok a
  symbols : ∀ t e n a, stores'.listSymbolMarketsByTier t e n = .ok a →
    stores.listSymbolMarketsByTier t e n = .ok a

theorem Stores.Repeats.refl (stores : Stores) : stores.Repeats stores :=
  ⟨fun _ h => h, fun _ _ _ h => h, fun _ _ _ _ h => h⟩

section
variable {stores stores' : Stores} (hsame : stores'.Repeats stores)

theorem lookup_of_answers {α : Type} {cache : String → Slice α} {key : String}
    {ask ask' : Except String (Slice α)} (hask : ∀ a, ask' = .ok a → ask = .ok a)
    {r : List α × (String → Slice α)} (h : lookup cache key ask' = .ok r) :
    lookup cache key ask = .ok r := by
  unfold lookup at h ⊢
  cases hcache : cache key with
  | some items => rw [hcache] at h; exact h
  | none =>
    rw [hcache] at h
    obtain ⟨a, ha, rfl⟩ := map_eq_ok h
    rw [hask a ha]
    rfl

include hsame

theorem findEndpoints_of_answers {policy : Policy} {s : PlanState}
    {r : List Endpoint × PlanState} (h : findEndpoints stores' policy s = .ok r) :
    findEndpoints stores policy s = .ok r := by
  unfold findEndpoints at h ⊢
  dsimp only at h ⊢
  split at h
  · rename_i hreq
    obtain ⟨a, ha, rfl⟩ := map_eq_ok h
    rw [if_pos hreq, lookup_of_answers (hsame.endpoints _ _) ha]
    rfl
  · rename_i hreq
    rw [if_neg hreq]
    exact h

theorem findSymbols_of_answers {policy : Policy} {s : PlanState}
    {r : List SymbolMarket × PlanState} (h : findSymbols stores' policy s = .ok r) :
    findSymbols stores policy s = .ok r := by
  unfold findSymbols at h ⊢
  dsimp only at h ⊢
  obtain ⟨a, ha, rfl⟩ := map_eq_ok h
  rw [lookup_of_answers (hsame.symbols _ _ _) ha]
  rfl

theorem runPolicy_of_answers {now now' : ℤ} {s s' : PlanState} {policy : Policy}
    (hbucket : scheduledBucket now policy.intervalSeconds =
      scheduledBucket now' policy.intervalSeconds)
    (h : runPolicy stores' now' s policy = .ok s') : runPolicy stores now s policy = .ok s' := by
  unfold runPolicy at h ⊢
  split at h
  · rename_i hskip
    rw [if_pos hskip]
    exact h
  · rename_i hskip
    rw [if_neg hskip]
    obtain ⟨⟨endpoints, s₁⟩, hendpoints, h⟩ := bind_eq_ok h
    rw [findEndpoints_of_answers hsame (mapError_eq_ok.1 hendpoints)]
    cases endpoints with
    | nil => exact h
    | cons endpoint rest =>
      obtain ⟨⟨markets, s₂⟩, hsymbols, h⟩ := bind_eq_ok h
      have hanswer := findSymbols_of_answers hsame (mapError_eq_ok.1 hsymbols)
      rw [← hbucket] at h
      simp only [Except.mapError, bind, Except.bind, hanswer]
      exact h

/-- **A run depends on the time through the buckets** of the policies. -/
theorem runPolicies_of_answers {now now' : ℤ} {policies : List Policy} {s : PlanState}
    (hbuckets : ∀ p ∈ policies,
      scheduledBucket now p.intervalSeconds = scheduledBucket now' p.intervalSeconds)
    (h : runPolicies stores' now' policies = .ok s) : runPolicies stores now policies = .ok s := by
  unfold runPolicies at h ⊢
  generalize PlanState.init = s₀ at h ⊢
  induction policies generalizing s₀ with
  | nil => rwa [List.foldlM_nil] at h ⊢
  | cons policy policies ih =>
    rw [List.foldlM_cons] at h ⊢
    obtain ⟨s₁, hone, hrest⟩ := bind_eq_ok h
    rw [runPolicy_of_answers hsame (hbuckets policy List.mem_cons_self) hone]
    exact ih (fun p hp => hbuckets p (List.mem_cons_of_mem _ hp)) s₁ hrest

end

/-! ## The jobs of a run -/

section
variable {stores : Stores} {now : ℤ}

theorem findEndpoints_jobs {policy : Policy} {s : PlanState} {r : List Endpoint × PlanState}
    (h : findEndpoints stores policy s = .ok r) : r.2.jobs = s.jobs := by
  unfold findEndpoints at h
  dsimp only at h
  split at h
  · obtain ⟨a, -, rfl⟩ := map_eq_ok h
    rfl
  · obtain rfl := Except.ok.inj h
    rfl

theorem findSymbols_jobs {policy : Policy} {s : PlanState} {r : List SymbolMarket × PlanState}
    (h : findSymbols stores policy s = .ok r) : r.2.jobs = s.jobs := by
  obtain ⟨a, -, rfl⟩ := map_eq_ok h
  rfl

/-- The jobs are those there were and some of this policy. -/
def PlanState.Extends (policy : Policy) (s s' : PlanState) : Prop :=
  ∃ new : List (Policy × NewJob), s'.jobs = s.jobs ++ new ∧
    ∀ x ∈ new, x.1 = policy ∧ x.2.priority = policy.priority

theorem PlanState.Extends.of_eq {policy : Policy} {s s' : PlanState} (h : s'.jobs = s.jobs) :
    s.Extends policy s' := 
  ⟨[], by rw [h, List.append_nil], fun _ hx => absurd hx List.not_mem_nil⟩

theorem extends_foldl_addJob (policy : Policy) (endpoint : Endpoint) (bucket : ℤ)
    (markets : List SymbolMarket) (s : PlanState) :
    s.Extends policy (markets.foldl (addJob policy endpoint bucket) s) := by
  induction markets generalizing s with
  | nil => exact .of_eq rfl
  | cons market markets ih =>
    obtain ⟨new, hnew, hpol⟩ := ih (addJob policy endpoint bucket s market)
    rw [List.foldl_cons]
    by_cases hsym : trimSpace market.sourceSymbol = ""
    · rw [addJob, if_pos hsym] at hnew ⊢
      exact ⟨new, hnew, hpol⟩
    · rw [addJob, if_neg hsym] at hnew ⊢
      refine ⟨(policy, plannedJob policy endpoint bucket market) :: new, ?_, ?_⟩
      · rw [hnew, List.append_assoc, List.singleton_append]
      · rintro x (_ | ⟨_, hx⟩)
        · exact ⟨rfl, rfl⟩
        · exact hpol x hx

theorem runPolicy_extends {s s' : PlanState} {policy : Policy}
    (h : runPolicy stores now s policy = .ok s') : s.Extends policy s' := by
  unfold runPolicy at h
  split at h
  · obtain rfl := Except.ok.inj h
    exact .of_eq rfl
  · obtain ⟨⟨endpoints, s₁⟩, hendpoints, h⟩ := bind_eq_ok h
    have h₁ := findEndpoints_jobs (mapError_eq_ok.1 hendpoints)
    cases endpoints with
    | nil =>
      obtain rfl := Except.ok.inj h
      exact .of_eq h₁
    | cons endpoint rest =>
      obtain ⟨⟨markets, s₂⟩, hsymbols, h⟩ := bind_eq_ok h
      have h₂ := findSymbols_jobs (mapError_eq_ok.1 hsymbols)
      have hjobs : s₂.jobs = s.jobs := h₂.trans h₁
      dsimp only at h
      split at h
      · obtain rfl := Except.ok.inj h
        exact .of_eq hjobs
      · obtain rfl := Except.ok.inj h
        obtain ⟨new, hnew, hpol⟩ := extends_foldl_addJob policy endpoint
          (scheduledBucket now policy.intervalSeconds) markets s₂
        exact ⟨new, by rw [hnew, hjobs], hpol⟩

/-- Each policy adds its jobs after those of the policies before it. -/
theorem foldlM_runPolicy_jobs {policies : List Policy} {s s' : PlanState}
    (hord : policies.Pairwise (·.priority ≤ ·.priority))
    (h : policies.foldlM (runPolicy stores now) s = .ok s') :
    ∃ new : List (Policy × NewJob), s'.jobs = s.jobs ++ new ∧
      new.Pairwise (·.1.priority ≤ ·.1.priority) ∧
        ∀ x ∈ new, x.1 ∈ policies ∧ x.2.priority = x.1.priority := by
  induction policies generalizing s with
  | nil =>
    obtain rfl := Except.ok.inj h
    exact ⟨[], (List.append_nil _).symm, .nil, fun _ hx => absurd hx List.not_mem_nil⟩
  | cons policy policies ih =>
    rw [List.foldlM_cons] at h
    obtain ⟨mid, hone, hrest⟩ := bind_eq_ok h
    obtain ⟨hfirst, hord⟩ := List.pairwise_cons.1 hord
    obtain ⟨own, hown, hpol⟩ := runPolicy_extends hone
    obtain ⟨new, hnew, hsorted, hfrom⟩ := ih hord hrest
    refine ⟨own ++ new, by rw [hnew, hown, List.append_assoc], ?_, fun x hx => ?_⟩
    · refine List.pairwise_append.2 ⟨?_, hsorted, fun x hx y hy => ?_⟩
      · refine List.pairwise_of_forall_mem_list fun x hx y hy => ?_
        rw [(hpol x hx).1, (hpol y hy).1]
      · rw [(hpol x hx).1]
        exact hfirst y.1 (hfrom y hy).1
    · rcases List.mem_append.1 hx with hx | hx
      · obtain ⟨rfl, hprio⟩ := hpol x hx
        exact ⟨List.mem_cons_self, hprio⟩
      · exact ⟨List.mem_cons_of_mem _ (hfrom x hx).1, (hfrom x hx).2⟩

/-- **Jobs are made in the order of the policies**, each with the priority of its
    policy. -/
theorem runPolicies_sorted {policies : List Policy} {s : PlanState}
    (hord : policies.Pairwise (·.priority ≤ ·.priority))
    (h : runPolicies stores now policies = .ok s) :
    s.jobs.Pairwise (·.1.priority ≤ ·.1.priority) ∧
      ∀ x ∈ s.jobs, x.1 ∈ policies ∧ x.2.priority = x.1.priority := by
  obtain ⟨new, hnew, hsorted, hfrom⟩ := foldlM_runPolicy_jobs hord h
  have hjobs : s.jobs = new := hnew
  rw [hjobs]
  exact ⟨hsorted, hfrom⟩

/-- What a run does to the database: nothing, or the insertion of its jobs. -/
theorem runAt_cases (stores : Stores) (now dbNow : ℤ) (fault : Option String) (db : DB) :
    ((runAt stores now dbNow fault db).1.2 ≠ none ∧ (runAt stores now dbNow fault db).2 = db) ∨
      ∃ policies s n, stores.listActivePolicies = .ok policies ∧
        runPolicies stores now policies = .ok s ∧
        db.insertJobs (s.jobs.map Prod.snd) dbNow =
          .ok (n, (runAt stores now dbNow fault db).2) := by
  unfold runAt
  cases hpolicies : stores.listActivePolicies with
  | error e => exact .inl ⟨Option.some_ne_none e, rfl⟩
  | ok policies =>
    dsimp only
    cases hrun : runPolicies stores now policies with
    | error e => exact .inl ⟨Option.some_ne_none e.2, rfl⟩
    | ok s =>
      dsimp only
      split
      · rename_i hempty
        rw [List.isEmpty_iff] at hempty
        exact .inr ⟨policies, s, 0, rfl, hrun, by rw [hempty]; rfl⟩
      · cases fault with
        | some e => exact .inl ⟨Option.some_ne_none e, rfl⟩
        | none =>
          cases hins : db.insertJobs (s.jobs.map Prod.snd) dbNow with
          | error e => exact .inl ⟨Option.some_ne_none e, rfl⟩
          | ok r => exact .inr ⟨policies, s, r.1, rfl, hrun, hins⟩

/-- In a sorted list the first element that satisfies `p` is the least. -/
theorem rel_of_find?_eq_some {α : Type} {r : α → α → Prop} [Std.Refl r] {l : List α}
    (hl : l.Pairwise r) {p : α → Bool} {x : α} (h : l.find? p = some x) :
    ∀ y ∈ l, p y → r x y := by
  induction l with
  | nil => cases h
  | cons a l ih =>
    obtain ⟨hfirst, hl⟩ := List.pairwise_cons.1 hl
    intro y hy hp
    by_cases ha : p a
    · rw [List.find?_cons_of_pos ha, Option.some.injEq] at h
      subst h
      rcases List.mem_cons.1 hy with rfl | hy
      · exact Std.Refl.refl y
      · exact hfirst y hy
    · rw [List.find?_cons_of_neg ha] at h
      rcases List.mem_cons.1 hy with rfl | hy
      · exact absurd hp ha
      · exact ih hl h y hy hp

end

section
variable {stores : Stores} {policies : List Policy} {now₁ t₁ : ℤ} {db db₁ : DB} {s : PlanState}
  {n : ℤ} (hplan : runPolicies stores now₁ policies = .ok s)
  (hins : db.insertJobs (s.jobs.map Prod.snd) t₁ = .ok (n, db₁))
include hplan hins

/-- A second run plans the same jobs, and all their keys are held. -/
theorem runAt_again (hpolicies : stores.listActivePolicies = .ok policies) {now₂ : ℤ}
    (hbuckets : ∀ p ∈ policies,
      scheduledBucket now₁ p.intervalSeconds = scheduledBucket now₂ p.intervalSeconds)
    {db₂ : DB} (hkept : ∀ j ∈ db₁.jobs, ∃ j' ∈ db₂.jobs, j'.idempotencyKey = j.idempotencyKey)
    {stores' : Stores} (hsame : stores'.Repeats stores) (t₂ : ℤ) (fault₂ : Option String) :
    (runAt stores' now₂ t₂ fault₂ db₂).2 = db₂ := by
  rcases runAt_cases stores' now₂ t₂ fault₂ db₂ with h | ⟨ps', s', m, hps', hplan', hins'⟩
  · exact h.2
  · have hps' := hsame.policies ps' hps'
    rw [hpolicies] at hps'
    obtain rfl := Except.ok.inj hps'
    have hagain := runPolicies_of_answers hsame hbuckets hplan'
    rw [hplan] at hagain
    obtain rfl := Except.ok.inj hagain
    refine (DB.insertJobs_of_held hins' fun job hjob => ?_).2
    obtain ⟨j, hj⟩ := Option.ne_none_iff_exists'.1 (DB.held_insertJobs hins hjob)
    obtain ⟨hmem, hkey⟩ := jobByKey_eq_some hj
    obtain ⟨j', hj', hkey'⟩ := hkept j hmem
    intro hnone
    exact jobByKey_eq_none.1 hnone j' hj' (hkey'.trans hkey)

/-- A new row is the first job with its key, and jobs are sorted by priority. -/
theorem exists_planned_of_new (hord : policies.Pairwise (·.priority ≤ ·.priority)) {row : Job}
    (hrow : jobByKey db₁.jobs row.idempotencyKey = some row)
    (hnew : ∀ j ∈ db.jobs, j.idempotencyKey ≠ row.idempotencyKey) :
    (∃ x ∈ s.jobs, x.2.idempotencyKey = row.idempotencyKey ∧ x.1.priority = row.priority) ∧
      ∀ x ∈ s.jobs, x.2.idempotencyKey = row.idempotencyKey → row.priority ≤ x.1.priority := by
  obtain ⟨hsorted, hfrom⟩ := runPolicies_sorted hord hplan
  obtain ⟨id, hid⟩ := (DB.jobByKey_insertJobs hins row.idempotencyKey).2 (jobByKey_eq_none.2 hnew)
  rw [hrow, List.map_map, List.find?_map] at hid
  obtain ⟨job, hjob, hrowjob⟩ := Option.map_eq_some_iff.1 hid.symm
  obtain ⟨x, hx, rfl⟩ := Option.map_eq_some_iff.1 hjob
  have hmem := List.mem_of_find?_eq_some hx
  have hkey : x.2.idempotencyKey = row.idempotencyKey := by
    simpa using List.find?_some hx
  have hprio : row.priority = x.1.priority := by
    rw [← hrowjob]
    exact (hfrom x hmem).2
  refine ⟨⟨x, hmem, hkey, hprio.symm⟩, fun y hy hykey => ?_⟩
  rw [hprio]
  have : Std.Refl fun a b : Policy × NewJob => a.1.priority ≤ b.1.priority :=
    ⟨fun _ => le_rfl⟩
  exact rel_of_find?_eq_some hsorted hx y hy (by simpa using hykey)

end

theorem runAt_idempotent {stores : Stores} {policies : List Policy}
    (hpolicies : stores.listActivePolicies = .ok policies)
    (hord : policies.Pairwise (·.priority ≤ ·.priority)) {now₁ now₂ : ℤ}
    (hbuckets : ∀ p ∈ policies,
      scheduledBucket now₁ p.intervalSeconds = scheduledBucket now₂ p.intervalSeconds)
    {db db₁ db₂ : DB} (hdb : db.KeysUnique) {t₁ : ℤ} {fault₁ : Option String}
    {result : PlanResult} (hrun : runAt stores now₁ t₁ fault₁ db = ((result, none), db₁))
    (hkept : ∀ j ∈ db₁.jobs, ∃ j' ∈ db₂.jobs, j'.idempotencyKey = j.idempotencyKey) :
    (∀ stores' : Stores, stores'.Repeats stores → ∀ t₂ fault₂,
      (runAt stores' now₂ t₂ fault₂ db₂).2 = db₂) ∧
    ∃ s, runPolicies stores now₁ policies = .ok s ∧
      ∀ row ∈ db₁.jobs, (∀ j ∈ db.jobs, j.idempotencyKey ≠ row.idempotencyKey) →
        (∀ row' ∈ db₁.jobs, row'.idempotencyKey = row.idempotencyKey → row' = row) ∧
        (∃ x ∈ s.jobs, x.2.idempotencyKey = row.idempotencyKey ∧
          x.1.priority = row.priority) ∧
        ∀ x ∈ s.jobs, x.2.idempotencyKey = row.idempotencyKey →
          row.priority ≤ x.1.priority := by
  obtain ⟨ps, s, n, hps, hplan, hins⟩ :=
    (runAt_cases stores now₁ t₁ fault₁ db).resolve_left fun h => h.1 (by rw [hrun])
  rw [hpolicies] at hps
  obtain rfl := Except.ok.inj hps
  rw [hrun] at hins
  refine ⟨fun stores' hsame t₂ fault₂ => ?_, s, hplan, fun row hrow hnew => ?_⟩
  · exact runAt_again hplan hins hpolicies hbuckets hkept hsame t₂ fault₂
  · have hunique := hdb.insertJobs hins
    have hrow' := hunique.mem_iff.1 ⟨hrow, rfl⟩
    refine ⟨fun row' hmem hkey => ?_, exists_planned_of_new hplan hins hord hrow' hnew⟩
    have hfirst := hunique.mem_iff.1 ⟨hmem, hkey⟩
    rw [hrow'] at hfirst
    exact (Option.some.inj hfirst).symm

/-- Two policies for one symbol: the tiers overlap. -/
def overlapping : List Policy :=
  [⟨1, "binance", "futures", "ticker", "top100", "", 60, 10, true, 3⟩,
   ⟨2, "binance", "futures", "ticker", "all", "", 60, 100, true, 3⟩]

def overlappingStores : Stores where
  listActivePolicies := .ok overlapping
  listActiveByExchangeDataType := fun _ _ => .ok (some [⟨7, "ticker", 1, 10000, 0, 0⟩])
  listSymbolMarketsByTier := fun _ _ _ => .ok (some [⟨1, "BTCUSDT"⟩])

theorem runAt_idempotent_overlapping :
    (runAt overlappingStores (65 * second) 0 none ⟨Table.empty, []⟩).1.2 = none ∧
      (runAt overlappingStores (65 * second) 0 none ⟨Table.empty, []⟩).2.jobs.rows.map Job.priority =
        [10] ∧
      ∃ db₁, db₁ = (runAt overlappingStores (65 * second) 0 none ⟨Table.empty, []⟩).2 ∧
        (runAt overlappingStores (90 * second) 0 none db₁).2 = db₁ := by
  have hnone : (runAt overlappingStores (65 * second) 0 none ⟨Table.empty, []⟩).1.2 = none := by
    decide +kernel
  have hbuckets : ∀ p ∈ overlapping, scheduledBucket (65 * second) p.intervalSeconds =
      scheduledBucket (90 * second) p.intervalSeconds := by decide +kernel
  have hord : overlapping.Pairwise (·.priority ≤ ·.priority) := by decide
  have hlist : overlappingStores.listActivePolicies = .ok overlapping := rfl
  refine ⟨hnone, by decide +kernel, _, rfl, ?_⟩
  have htwice := runAt_idempotent hlist hord hbuckets (by decide)
    (Prod.ext (Prod.ext rfl hnone) rfl) fun j hj => ⟨j, hj, rfl⟩
  exact htwice.1 overlappingStores (.refl _) 0 none

end Aggregator.Scheduler
