/-
  The caches of the planner do not show (`internal/scheduler/planner.go`: `RunAt`).

  `Plan` is a run without caches: it asks the stores anew for every policy.  A cached
  answer is found under a text made of the exchange and the data type, or of the tier,
  the exchange and the limit; an answer that is nil counts as missing and is asked for
  again, an empty one is kept.

  * `runPolicy_plan`: one policy does what it does without caches, if the caches hold
    what the stores answer;
  * `runAt_afresh`: a whole run submits the same jobs and returns the same result, also
    when a store fails, if no exchange has a colon.
-/
import Aggregator.Scheduler.PlannedJobs

namespace Aggregator.Scheduler

open Aggregator.Go

/-- What a run without caches has collected so far. -/
structure Plan where
  result : PlanResult
  jobs : List (Policy × NewJob)

namespace Plan

def init : Plan := ⟨newPlanResult, []⟩

def skip (plan : Plan) (policy : Policy) (reason : String) : Plan :=
  { plan with
    result := { plan.result with
      skipped := plan.result.skipped.upsert ⟨policyKey policy, 1, reason⟩ Skipped.again
        Skipped.again_key } }

def addJob (policy : Policy) (endpoint : Endpoint) (bucket : ℤ) (plan : Plan)
    (market : SymbolMarket) : Plan :=
  if trimSpace market.sourceSymbol = "" then plan.skip policy "symbol missing source_symbol"
  else { plan with jobs := plan.jobs ++ [(policy, plannedJob policy endpoint bucket market)] }

/-- One policy; its endpoints and its symbols are asked for. -/
def runPolicy (stores : Stores) (now : ℤ) (plan : Plan) (policy : Policy) :
    Except (PlanResult × String) Plan :=
  if !policy.enabled || policy.intervalSeconds ≤ 0 then
    .ok (plan.skip policy "policy disabled or interval invalid")
  else do
    let endpoints ← (stores.endpointsOf policy).mapError (plan.result, ·)
    match endpoints with
    | [] => return plan.skip policy "no active endpoint for data type"
    | endpoint :: _ =>
      let markets ← (stores.symbolsOf policy).mapError (plan.result, ·)
      if markets.isEmpty then return plan.skip policy "no symbols in tier for exchange"
      else
        let bucket := scheduledBucket now policy.intervalSeconds
        return markets.foldl (addJob policy endpoint bucket) plan

def runPolicies (stores : Stores) (now : ℤ) (policies : List Policy) :
    Except (PlanResult × String) Plan :=
  policies.foldlM (runPolicy stores now) .init

/-- What is left of a run when its policies are through: the jobs are inserted, if
    there are any. -/
def finish (plan : Except (PlanResult × String) Plan) (dbNow : ℤ) (fault : Option String)
    (db : DB) : (PlanResult × Option String) × DB :=
  match plan with
  | .error (result, e) => ((result, some e), db)
  | .ok plan =>
    let jobs := plan.jobs.map Prod.snd
    let result := { plan.result with attemptedJobs := jobs.length }
    if jobs.isEmpty then ((result, none), db)
    else
      match fault, db.insertJobs jobs dbNow with
      | some e, _ => ((result, some e), db)
      | none, .error e => ((result, some e), db)
      | none, .ok (inserted, db) => (({ result with insertedJobs := inserted }, none), db)

/-- The jobs `InsertJobs` is called with; it is not called without jobs. -/
def submitted (plan : Except (PlanResult × String) Plan) : Option (List NewJob) :=
  match plan with
  | .error _ => none
  | .ok plan => if plan.jobs.isEmpty then none else some (plan.jobs.map Prod.snd)

def runAt (stores : Stores) (now dbNow : ℤ) (fault : Option String) (db : DB) :
    (PlanResult × Option String) × DB :=
  match stores.listActivePolicies with
  | .error e => ((newPlanResult, some e), db)
  | .ok policies => finish (runPolicies stores now policies) dbNow fault db

end Plan

/-- The state of a run without its caches. -/
def PlanState.plan (s : PlanState) : Plan := ⟨s.result, s.jobs⟩

theorem plan_addJob (policy : Policy) (endpoint : Endpoint) (bucket : ℤ) (s : PlanState)
    (market : SymbolMarket) :
    (addJob policy endpoint bucket s market).plan =
      Plan.addJob policy endpoint bucket s.plan market := by
  unfold addJob Plan.addJob
  split
  · rfl
  · rfl

theorem plan_foldl_addJob (policy : Policy) (endpoint : Endpoint) (bucket : ℤ) (s : PlanState)
    (markets : List SymbolMarket) :
    (markets.foldl (addJob policy endpoint bucket) s).plan =
      markets.foldl (Plan.addJob policy endpoint bucket) s.plan :=
  (List.foldl_hom PlanState.plan fun s market =>
    (plan_addJob policy endpoint bucket s market).symm).symm

/-! ## One policy -/

/-- A lookup fails only if the store does. -/
theorem lookup_eq_error {α : Type} {cache : String → Slice α} {key : String}
    {ask : Except String (Slice α)} {e : String} (h : lookup cache key ask = .error e) :
    ask = .error e := by
  unfold lookup at h
  split at h
  · cases h
  · cases ask with
    | error e' => exact congrArg _ (Except.error.inj h)
    | ok a => cases h

section
variable {stores : Stores} {now : ℤ} {s : PlanState} {p : Policy} {policies : List Policy}
  (hsound : stores.CacheSound policies) (hp : p ∈ policies) (hs : s.Cached stores policies)
include hsound hp hs

/-- The endpoints a policy finds are those it would be answered, and nothing else
    changes that shows. -/
theorem findEndpoints_afresh :
    (∃ e, findEndpoints stores p s = .error e ∧ stores.endpointsOf p = .error e) ∨
    ∃ endpoints s', findEndpoints stores p s = .ok (endpoints, s') ∧
      stores.endpointsOf p = .ok endpoints ∧ s'.plan = s.plan ∧ s'.Cached stores policies := by
  cases h : findEndpoints stores p s with
  | error e =>
    refine .inl ⟨e, rfl, ?_⟩
    rw [findEndpoints_eq] at h
    split at h
    · rename_i hreq
      cases hlookup : lookup s.endpointCache p.endpointCacheKey (stores.askEndpoints p) with
      | error e' =>
        rw [hlookup] at h
        rw [Stores.endpointsOf, if_pos hreq, lookup_eq_error hlookup]
        exact congrArg _ (Except.error.inj h)
      | ok r => rw [hlookup] at h; cases h
    · cases h
  | ok r =>
    obtain ⟨endpoints, s'⟩ := r
    obtain ⟨hcache, hanswer⟩ := findEndpoints_cacheOf hs.endpoints
      (fun q hq hkey => hsound.endpoints q hq p hp hkey) h
    obtain ⟨hjobs, hsymbols⟩ := findEndpoints_frame h
    have hplan : s'.plan = s.plan := by
      rw [findEndpoints_eq] at h
      split at h
      · obtain ⟨r, -, hpair⟩ := map_eq_ok h
        obtain ⟨-, rfl⟩ := Prod.mk.inj hpair
        rfl
      · obtain ⟨-, rfl⟩ := Prod.mk.inj (Except.ok.inj h)
        rfl
    exact .inr ⟨endpoints, s', rfl, hanswer hp, hplan, hcache, hsymbols ▸ hs.symbols⟩

omit hsound in
theorem findSymbols_afresh :
    (∃ e, findSymbols stores p s = .error e ∧ stores.symbolsOf p = .error e) ∨
    ∃ markets s', findSymbols stores p s = .ok (markets, s') ∧
      stores.symbolsOf p = .ok markets ∧ s'.plan = s.plan := by
  rw [findSymbols_eq]
  cases h : lookup s.symbolCache p.symbolCacheKey (stores.askSymbols p) with
  | error e =>
    refine .inl ⟨e, rfl, ?_⟩
    rw [Stores.symbolsOf, lookup_eq_error h]
    rfl
  | ok r => exact .inr ⟨r.1, _, rfl, hs.symbols.answer hp h, rfl⟩

/-- **One policy** does what it does without caches. -/
theorem runPolicy_plan :
    (runPolicy stores now s p).map PlanState.plan = Plan.runPolicy stores now s.plan p := by
  unfold runPolicy Plan.runPolicy
  split
  · rfl
  · rcases findEndpoints_afresh hsound hp hs with ⟨e, hfind, hanswer⟩ |
      ⟨endpoints, s₁, hfind, hanswer, hplan, hs₁⟩
    · rw [hfind, hanswer]
      rfl
    · rw [hfind, hanswer, ← hplan]
      cases endpoints with
      | nil => rfl
      | cons endpoint rest =>
        rcases findSymbols_afresh hp hs₁ with ⟨e, hfind₂, hanswer₂⟩ |
          ⟨markets, s₂, hfind₂, hanswer₂, hplan₂⟩
        · simp only [Except.mapError, bind, Except.bind, hfind₂, hanswer₂]
          rfl
        · simp only [Except.mapError, bind, Except.bind, hfind₂, hanswer₂, ← hplan₂]
          split
          · rfl
          · exact congrArg Except.ok (plan_foldl_addJob p endpoint _ s₂ markets)

end

/-! ## A run -/

theorem runPolicies_plan {stores : Stores} {policies : List Policy}
    (hsound : stores.CacheSound policies) (now : ℤ) :
    (runPolicies stores now policies).map PlanState.plan = Plan.runPolicies stores now policies :=
  foldlM_simulates PlanState.plan (PlanState.Cached stores policies)
    (fun _ hp _ hs => runPolicy_plan hsound hp hs)
    (fun _ hp _ _ hs h => (runPolicy_jobs hsound hp hs h).2.1) ⟨CacheOf.empty, CacheOf.empty⟩

/-- The end of a run does not look at the caches. -/
theorem runAt_eq_finish (stores : Stores) (now dbNow : ℤ) (fault : Option String) (db : DB) :
    runAt stores now dbNow fault db =
      match stores.listActivePolicies with
      | .error e => ((newPlanResult, some e), db)
      | .ok policies =>
        Plan.finish ((runPolicies stores now policies).map PlanState.plan) dbNow fault db := by
  unfold runAt
  cases stores.listActivePolicies with
  | error e => rfl
  | ok policies =>
    dsimp only
    cases runPolicies stores now policies with
    | error e => rfl
    | ok s => rfl

/-- **The caches do not show**: a run submits the jobs that it would submit if it asked
    the stores anew for every policy, and returns the same result. -/
theorem runAt_afresh {stores : Stores}
    (hcolon : ∀ policies, stores.listActivePolicies = .ok policies →
      ∀ p ∈ policies, ':' ∉ p.exchange.toList) (now : ℤ) :
    (∀ policies, stores.listActivePolicies = .ok policies →
      Plan.submitted ((runPolicies stores now policies).map PlanState.plan) =
        Plan.submitted (Plan.runPolicies stores now policies)) ∧
    ∀ dbNow fault db, runAt stores now dbNow fault db = Plan.runAt stores now dbNow fault db := by
  have hplan : ∀ policies, stores.listActivePolicies = .ok policies →
      (runPolicies stores now policies).map PlanState.plan =
        Plan.runPolicies stores now policies := by
    intro policies h
    exact runPolicies_plan (.of_colon_notMem stores (hcolon policies h)) now
  refine ⟨fun policies h => by rw [hplan policies h], fun dbNow fault db => ?_⟩
  rw [runAt_eq_finish, Plan.runAt]
  cases h : stores.listActivePolicies with
  | error e => rfl
  | ok policies =>
    dsimp only
    rw [hplan policies h]

/-- Two policies of one exchange, which share their endpoints. -/
theorem runAt_afresh_overlapping :
    (runAt overlappingStores (65 * second) 0 none ⟨Table.empty, []⟩).1.1.attemptedJobs = 2 ∧
      ∀ dbNow fault db, runAt overlappingStores (65 * second) dbNow fault db =
        Plan.runAt overlappingStores (65 * second) dbNow fault db := by
  refine ⟨by decide +kernel, (runAt_afresh (fun policies h => ?_) (65 * second)).2⟩
  obtain rfl := Except.ok.inj h
  decide

end Aggregator.Scheduler
