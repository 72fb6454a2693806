/-
  The jobs of a run of the planner, without its caches.

  A run keeps the answers of its stores under a text, so policies with the same
  text share an answer.  Where they would have been given the same answer anyway
  (`CacheSound`), a run makes the jobs that each policy gives rise to by itself.

  * `runPolicy_cases`: everything one policy does;
  * `runPolicies_jobs`: the jobs of a run are those of its policies, one after the
    other;
  * `symbol_of_job`: a job is for a symbol of the answer for its policy, also if
    only the symbols of policies like it are cached soundly.
-/
import Aggregator.Scheduler.Planner

namespace Aggregator.Scheduler

open Aggregator.Go

namespace Policy

def endpointCacheKey (p : Policy) : String := p.exchange ++ ":" ++ (endpointDataType p.dataType).1

def symbolCacheKey (p : Policy) : String :=
  ":".intercalate [p.tier, p.exchange, toString (symbolLimitForTier p.tier)]

/-- The policy is looked at. -/
def Runs (p : Policy) : Prop := ¬(!p.enabled || p.intervalSeconds ≤ 0) = true

instance (p : Policy) : Decidable p.Runs := inferInstanceAs (Decidable (¬_))

end Policy

namespace Stores

/-- What the endpoint store answers for a policy. -/
def askEndpoints (stores : Stores) (p : Policy) : Except String (Slice Endpoint) :=
  stores.listActiveByExchangeDataType p.exchange (endpointDataType p.dataType).1

def askSymbols (stores : Stores) (p : Policy) : Except String (Slice SymbolMarket) :=
  stores.listSymbolMarketsByTier p.tier p.exchange (symbolLimitForTier p.tier)

/-- The endpoints of a policy, asked for anew. -/
def endpointsOf (stores : Stores) (p : Policy) : Except String (List Endpoint) :=
  if (endpointDataType p.dataType).2 then (stores.askEndpoints p).map (·.getD [])
  else .ok [internalEndpoint]

def symbolsOf (stores : Stores) (p : Policy) : Except String (List SymbolMarket) :=
  (stores.askSymbols p).map (·.getD [])

end Stores

/-- The jobs for some symbols. -/
def jobsFor (p : Policy) (endpoint : Endpoint) (now : ℤ) (markets : List SymbolMarket) :
    List (Policy × NewJob) :=
  (markets.filter fun m => trimSpace m.sourceSymbol ≠ "").map fun m =>
    (p, plannedJob p endpoint (scheduledBucket now p.intervalSeconds) m)

/-- The jobs of a policy by itself. -/
def jobsOf (stores : Stores) (now : ℤ) (p : Policy) : List (Policy × NewJob) :=
  if p.Runs then
    match stores.endpointsOf p, stores.symbolsOf p with
    | .ok (endpoint :: _), .ok markets => jobsFor p endpoint now markets
    | _, _ => []
  else []

/-- The job for a symbol, without the pair it is read from. -/
theorem toJob_plannedJob (p : Policy) (endpoint : Endpoint) (bucket : ℤ) (m : SymbolMarket) :
    (plannedJob p endpoint bucket m).toJob = .planned 0 p.exchange p.dataType p.tier m.symbolID
      m.sourceSymbol p.period p.priority p.maxRetry
      (plannerMetadata p endpoint (endpointDataType p.dataType).1 (endpointDataType p.dataType).2)
      bucket := by
  unfold plannedJob
  generalize endpointDataType p.dataType = r
  rfl

theorem mem_jobsFor {p : Policy} {endpoint : Endpoint} {now : ℤ} {markets : List SymbolMarket}
    {x : Policy × NewJob} :
    x ∈ jobsFor p endpoint now markets ↔ ∃ m ∈ markets, trimSpace m.sourceSymbol ≠ "" ∧
      x = (p, plannedJob p endpoint (scheduledBucket now p.intervalSeconds) m) := by
  rw [jobsFor, List.mem_map]
  constructor
  · rintro ⟨m, hm, rfl⟩
    obtain ⟨hmem, hsource⟩ := List.mem_filter.1 hm
    exact ⟨m, hmem, of_decide_eq_true hsource, rfl⟩
  · rintro ⟨m, hmem, hsource, rfl⟩
    exact ⟨m, List.mem_filter.2 ⟨hmem, decide_eq_true hsource⟩, rfl⟩

theorem mem_jobsOf {stores : Stores} {now : ℤ} {p : Policy} {x : Policy × NewJob} :
    x ∈ jobsOf stores now p ↔ p.Runs ∧ ∃ endpoint rest markets,
      stores.endpointsOf p = .ok (endpoint :: rest) ∧ stores.symbolsOf p = .ok markets ∧
        x ∈ jobsFor p endpoint now markets := by
  unfold jobsOf
  by_cases hruns : p.Runs
  · rw [if_pos hruns]
    constructor
    · intro h
      split at h
      · rename_i endpoint rest markets hendpoints hsymbols
        exact ⟨hruns, endpoint, rest, markets, hendpoints, hsymbols, h⟩
      · cases h
    · rintro ⟨-, endpoint, rest, markets, hendpoints, hsymbols, h⟩
      simp only [hendpoints, hsymbols]
      exact h
  · rw [if_neg hruns]
    exact iff_of_false List.not_mem_nil fun h => hruns h.1

/-! ## One policy -/

theorem foldl_addJob (p : Policy) (endpoint : Endpoint) (now : ℤ) (markets : List SymbolMarket)
    (s : PlanState) :
    (markets.foldl (addJob p endpoint (scheduledBucket now p.intervalSeconds)) s).jobs =
        s.jobs ++ jobsFor p endpoint now markets ∧
      (markets.foldl (addJob p endpoint (scheduledBucket now p.intervalSeconds)) s).endpointCache =
        s.endpointCache ∧
      (markets.foldl (addJob p endpoint (scheduledBucket now p.intervalSeconds)) s).symbolCache =
        s.symbolCache := by
  induction markets generalizing s with
  | nil => exact ⟨(List.append_nil _).symm, rfl, rfl⟩
  | cons m markets ih =>
    obtain ⟨hjobs, hendpoints, hsymbols⟩ :=
      ih (addJob p endpoint (scheduledBucket now p.intervalSeconds) s m)
    rw [List.foldl_cons, hjobs, hendpoints, hsymbols]
    by_cases hblank : trimSpace m.sourceSymbol = ""
    · rw [addJob, if_pos hblank]
      refine ⟨?_, rfl, rfl⟩
      simp [jobsFor, hblank, PlanState.skip]
    · rw [addJob, if_neg hblank]
      refine ⟨?_, rfl, rfl⟩
      simp [jobsFor, hblank]

section
variable {stores : Stores} {now : ℤ} {s s' : PlanState} {p : Policy}

theorem findEndpoints_eq (stores : Stores) (p : Policy) (s : PlanState) :
    findEndpoints stores p s =
      if (endpointDataType p.dataType).2 then
        (lookup s.endpointCache p.endpointCacheKey (stores.askEndpoints p)).map
          fun (items, cache) => (items, { s with endpointCache := cache })
      else .ok ([internalEndpoint], s) := by
  unfold findEndpoints Policy.endpointCacheKey Stores.askEndpoints
  generalize endpointDataType p.dataType = r
  rfl

theorem findSymbols_eq (stores : Stores) (p : Policy) (s : PlanState) :
    findSymbols stores p s =
      (lookup s.symbolCache p.symbolCacheKey (stores.askSymbols p)).map
        fun (items, cache) => (items, { s with symbolCache := cache }) := rfl

/-- **Everything one policy does**: it is not looked at, or has no endpoint, or
    its endpoints and symbols are looked up and the jobs for the symbols made. -/
theorem runPolicy_cases (h : runPolicy stores now s p = .ok s') :
    (¬p.Runs ∧ s'.jobs = s.jobs ∧ s'.endpointCache = s.endpointCache ∧
      s'.symbolCache = s.symbolCache) ∨
    (p.Runs ∧ ∃ s₁, findEndpoints stores p s = .ok ([], s₁) ∧ s'.jobs = s₁.jobs ∧
      s'.endpointCache = s₁.endpointCache ∧ s'.symbolCache = s₁.symbolCache) ∨
    (p.Runs ∧ ∃ endpoint rest s₁ markets s₂, findEndpoints stores p s = .ok (endpoint :: rest, s₁) ∧
      findSymbols stores p s₁ = .ok (markets, s₂) ∧
      s'.jobs = s₂.jobs ++ jobsFor p endpoint now markets ∧
      s'.endpointCache = s₂.endpointCache ∧ s'.symbolCache = s₂.symbolCache) := by
  unfold runPolicy at h
  split at h
  · rename_i hskip
    obtain rfl := Except.ok.inj h
    exact .inl ⟨not_not.2 hskip, rfl, rfl, rfl⟩
  · rename_i hruns
    obtain ⟨⟨endpoints, s₁⟩, hendpoints, h⟩ := bind_eq_ok h
    have hendpoints := mapError_eq_ok.1 hendpoints
    cases endpoints with
    | nil =>
      obtain rfl := Except.ok.inj h
      exact .inr (.inl ⟨hruns, s₁, hendpoints, rfl, rfl, rfl⟩)
    | cons endpoint rest =>
      obtain ⟨⟨markets, s₂⟩, hsymbols, h⟩ := bind_eq_ok h
      have hsymbols := mapError_eq_ok.1 hsymbols
      refine .inr (.inr ⟨hruns, endpoint, rest, s₁, markets, s₂, hendpoints, hsymbols, ?_⟩)
      dsimp only at h
      split at h
      · rename_i hempty
        obtain rfl := Except.ok.inj h
        rw [List.isEmpty_iff.1 hempty]
        exact ⟨(List.append_nil _).symm, rfl, rfl⟩
      · obtain rfl := Except.ok.inj h
        exact foldl_addJob p endpoint now markets s₂

end

/-! ## Caches -/

section
variable {α : Type} {ask : Policy → Except String (Slice α)} {key : Policy → String}
  {P : Policy → Prop} {cache cache' : String → Slice α} {items : List α} {q : Policy}

/-- The cache holds, for some of the policies, what the store would answer. -/
def CacheOf (ask : Policy → Except String (Slice α)) (key : Policy → String) (P : Policy → Prop)
    (cache : String → Slice α) : Prop :=
  ∀ p, P p → ∀ items, cache (key p) = some items → ask p = .ok (some items)

theorem CacheOf.empty : CacheOf ask key P fun _ => none := by
  intro p _ items h
  cases h

/-- A lookup keeps the cache so if its policy would be answered like those it
    shares a key with. -/
theorem CacheOf.step (hcache : CacheOf ask key P cache)
    (hsound : ∀ p, P p → key p = key q → ask p = ask q)
    (h : lookup cache (key q) (ask q) = .ok (items, cache')) : CacheOf ask key P cache' := by
  unfold lookup at h
  cases hq : cache (key q) with
  | some old =>
    rw [hq] at h
    obtain ⟨-, rfl⟩ := Prod.mk.inj (Except.ok.inj h)
    exact hcache
  | none =>
    rw [hq] at h
    obtain ⟨answer, hanswer, hpair⟩ := map_eq_ok h
    obtain ⟨-, rfl⟩ := Prod.mk.inj hpair
    intro p hp items' hitems
    by_cases hkey : key p = key q
    · simp only [hkey, ↓reduceIte] at hitems
      rw [hsound p hp hkey, hanswer, hitems]
    · simp only [hkey, ↓reduceIte] at hitems
      exact hcache p hp items' hitems

/-- What a lookup returns for one of the policies. -/
theorem CacheOf.answer (hcache : CacheOf ask key P cache) (hq : P q)
    (h : lookup cache (key q) (ask q) = .ok (items, cache')) :
    (ask q).map (·.getD []) = .ok items := by
  unfold lookup at h
  cases hcached : cache (key q) with
  | some old =>
    rw [hcached] at h
    obtain ⟨rfl, -⟩ := Prod.mk.inj (Except.ok.inj h)
    rw [hcache q hq old hcached]
    rfl
  | none =>
    rw [hcached] at h
    obtain ⟨answer, hanswer, hpair⟩ := map_eq_ok h
    obtain ⟨rfl, -⟩ := Prod.mk.inj hpair
    rw [hanswer]
    rfl

end

section
variable {stores : Stores} {now : ℤ} {P : Policy → Prop} {s s' : PlanState} {q : Policy}

theorem findEndpoints_cacheOf (hcache : CacheOf stores.askEndpoints Policy.endpointCacheKey P
      s.endpointCache)
    (hsound : ∀ p, P p → p.endpointCacheKey = q.endpointCacheKey →
      stores.askEndpoints p = stores.askEndpoints q) {endpoints : List Endpoint}
    (h : findEndpoints stores q s = .ok (endpoints, s')) :
    CacheOf stores.askEndpoints Policy.endpointCacheKey P s'.endpointCache ∧
      (P q → stores.endpointsOf q = .ok endpoints) := by
  rw [findEndpoints_eq] at h
  split at h
  · rename_i hreq
    obtain ⟨⟨items, cache⟩, hlookup, hpair⟩ := map_eq_ok h
    obtain ⟨rfl, rfl⟩ := Prod.mk.inj hpair
    refine ⟨hcache.step hsound hlookup, fun hq => ?_⟩
    rw [Stores.endpointsOf, if_pos hreq]
    exact hcache.answer hq hlookup
  · rename_i hreq
    obtain ⟨rfl, rfl⟩ := Prod.mk.inj (Except.ok.inj h)
    refine ⟨hcache, fun _ => ?_⟩
    rw [Stores.endpointsOf, if_neg hreq]

theorem findEndpoints_frame {endpoints : List Endpoint}
    (h : findEndpoints stores q s = .ok (endpoints, s')) :
    s'.jobs = s.jobs ∧ s'.symbolCache = s.symbolCache := by
  rw [findEndpoints_eq] at h
  split at h
  · obtain ⟨r, -, hpair⟩ := map_eq_ok h
    obtain ⟨-, rfl⟩ := Prod.mk.inj hpair
    exact ⟨rfl, rfl⟩
  · obtain ⟨-, rfl⟩ := Prod.mk.inj (Except.ok.inj h)
    exact ⟨rfl, rfl⟩

theorem findSymbols_cacheOf (hcache : CacheOf stores.askSymbols Policy.symbolCacheKey P
      s.symbolCache)
    (hsound : ∀ p, P p → p.symbolCacheKey = q.symbolCacheKey →
      stores.askSymbols p = stores.askSymbols q) {markets : List SymbolMarket}
    (h : findSymbols stores q s = .ok (markets, s')) :
    CacheOf stores.askSymbols Policy.symbolCacheKey P s'.symbolCache ∧
      s'.jobs = s.jobs ∧ s'.endpointCache = s.endpointCache ∧
      (P q → stores.symbolsOf q = .ok markets) := by
  rw [findSymbols_eq] at h
  obtain ⟨⟨items, cache⟩, hlookup, hpair⟩ := map_eq_ok h
  obtain ⟨rfl, rfl⟩ := Prod.mk.inj hpair
  exact ⟨hcache.step hsound hlookup, rfl, rfl, fun hq => hcache.answer hq hlookup⟩

/-! ## Runs -/

/-- Policies that share a key are given the same answer. -/
structure Stores.CacheSound (stores : Stores) (policies : List Policy) : Prop where
  endpoints : ∀ p ∈ policies, ∀ q ∈ policies, p.endpointCacheKey = q.endpointCacheKey →
    stores.askEndpoints p = stores.askEndpoints q
  symbols : ∀ p ∈ policies, ∀ q ∈ policies, p.symbolCacheKey = q.symbolCacheKey →
    stores.askSymbols p = stores.askSymbols q

theorem Stores.CacheSound.singleton (stores : Stores) (p : Policy) : stores.CacheSound [p] := by
  constructor
  · intro q hq r hr _
    rw [List.mem_singleton.1 hq, List.mem_singleton.1 hr]
  · intro q hq r hr _
    rw [List.mem_singleton.1 hq, List.mem_singleton.1 hr]

theorem symbolLimitForTier_cases (tier : String) :
    symbolLimitForTier tier = 100 ∧ toLower (trimSpace tier) = "top100" ∨
      symbolLimitForTier tier = 0 := by
  unfold symbolLimitForTier
  split
  · rename_i h
    exact .inl ⟨rfl, h⟩
  · exact .inr rfl

theorem colon_notMem_limit (tier : String) :
    ':' ∉ (toString (symbolLimitForTier tier)).toList := by
  rcases symbolLimitForTier_cases tier with ⟨h, -⟩ | h
  · rw [h]
    decide
  · rw [h]
    decide

/-- The parts of a cache key are read back if no exchange has a colon. -/
theorem Stores.CacheSound.of_colon_notMem (stores : Stores) {policies : List Policy}
    (h : ∀ p ∈ policies, ':' ∉ p.exchange.toList) : stores.CacheSound policies := by
  constructor
  · intro p hp q hq hkey
    have hlist := congrArg String.toList hkey
    simp only [Policy.endpointCacheKey, String.toList_append, List.append_assoc] at hlist
    obtain ⟨hexchange, htype⟩ := append_sep_inj (h p hp) (h q hq) hlist
    rw [askEndpoints, askEndpoints, String.toList_inj.1 hexchange, String.toList_inj.1 htype]
  · intro p hp q hq hkey
    -- the last two colons of the key are those between its parts
    have hlist := congrArg (fun s => s.toList.reverse) hkey
    simp only [Policy.symbolCacheKey, String.intercalate_cons_cons, String.intercalate_singleton,
      String.toList_append, List.reverse_append, List.append_assoc] at hlist
    have hlimit : ∀ tier, ':' ∉ (toString (symbolLimitForTier tier)).toList.reverse := by
      intro tier
      rw [List.mem_reverse]
      exact colon_notMem_limit tier
    obtain ⟨-, hrest⟩ := append_sep_inj (hlimit p.tier) (hlimit q.tier) hlist
    obtain ⟨hexchange, htier⟩ := append_sep_inj (by rw [List.mem_reverse]; exact h p hp)
      (by rw [List.mem_reverse]; exact h q hq) hrest
    have hexchange := String.toList_inj.1 (List.reverse_injective hexchange)
    have htier := String.toList_inj.1 (List.reverse_injective htier)
    rw [askSymbols, askSymbols, hexchange, htier]

/-- The caches hold what the stores answer for the policies. -/
structure PlanState.Cached (stores : Stores) (policies : List Policy) (s : PlanState) : Prop where
  endpoints : CacheOf stores.askEndpoints Policy.endpointCacheKey (· ∈ policies) s.endpointCache
  symbols : CacheOf stores.askSymbols Policy.symbolCacheKey (· ∈ policies) s.symbolCache

/-- One policy adds the jobs it gives rise to by itself, and its endpoints were
    found. -/
theorem runPolicy_jobs {policies : List Policy} (hsound : stores.CacheSound policies)
    (hq : q ∈ policies) (hs : s.Cached stores policies) (h : runPolicy stores now s q = .ok s') :
    s'.jobs = s.jobs ++ jobsOf stores now q ∧ s'.Cached stores policies ∧
      (q.Runs → ∃ endpoints, stores.endpointsOf q = .ok endpoints) := by
  have hsoundE := fun p hp hkey => hsound.endpoints p hp q hq hkey
  have hsoundS := fun p hp hkey => hsound.symbols p hp q hq hkey
  rcases runPolicy_cases h with ⟨hruns, hjobs, hcacheE, hcacheS⟩ |
    ⟨hruns, s₁, hfind, hjobs, hcacheE, hcacheS⟩ |
    ⟨hruns, endpoint, rest, s₁, markets, s₂, hfind, hsymbols, hjobs, hcacheE, hcacheS⟩
  · rw [jobsOf, if_neg hruns, hjobs, List.append_nil]
    exact ⟨rfl, ⟨hcacheE ▸ hs.endpoints, hcacheS ▸ hs.symbols⟩, fun h => absurd h hruns⟩
  · obtain ⟨hcache, hanswer⟩ := findEndpoints_cacheOf hs.endpoints hsoundE hfind
    obtain ⟨hjobs₁, hsym₁⟩ := findEndpoints_frame hfind
    refine ⟨?_, ⟨hcacheE ▸ hcache, ?_⟩, fun _ => ⟨_, hanswer hq⟩⟩
    · simp only [jobsOf, if_pos hruns, hanswer hq, hjobs, hjobs₁, List.append_nil]
    · rw [hcacheS, hsym₁]
      exact hs.symbols
  · obtain ⟨hcache, hanswer⟩ := findEndpoints_cacheOf hs.endpoints hsoundE hfind
    obtain ⟨hjobs₁, hsym₁⟩ := findEndpoints_frame hfind
    obtain ⟨hcache₂, hjobs₂, hend₂, hanswer₂⟩ :=
      findSymbols_cacheOf (hsym₁ ▸ hs.symbols) hsoundS hsymbols
    refine ⟨?_, ⟨?_, hcacheS ▸ hcache₂⟩, fun _ => ⟨_, hanswer hq⟩⟩
    · simp only [jobsOf, if_pos hruns, hanswer hq, hanswer₂ hq, hjobs, hjobs₂, hjobs₁]
    · rw [hcacheE, hend₂]
      exact hcache

/-- **The jobs of a run** are those of its policies, one after the other. -/
theorem runPolicies_jobs {policies : List Policy} (hsound : stores.CacheSound policies)
    (h : runPolicies stores now policies = .ok s) :
    s.jobs = policies.flatMap (jobsOf stores now) ∧
      ∀ p ∈ policies, p.Runs → ∃ endpoints, stores.endpointsOf p = .ok endpoints := by
  have hrun : ∀ (ps : List Policy) (s₀ s₁ : PlanState), ps ⊆ policies →
      s₀.Cached stores policies → ps.foldlM (runPolicy stores now) s₀ = .ok s₁ →
      s₁.jobs = s₀.jobs ++ ps.flatMap (jobsOf stores now) ∧
        ∀ p ∈ ps, p.Runs → ∃ endpoints, stores.endpointsOf p = .ok endpoints := by
    intro ps
    induction ps with
    | nil =>
      intro s₀ s₁ _ _ h
      obtain rfl := Except.ok.inj h
      exact ⟨(List.append_nil _).symm, fun _ hp => absurd hp List.not_mem_nil⟩
    | cons q ps ih =>
      intro s₀ s₁ hps hs₀ h
      rw [List.foldlM_cons] at h
      obtain ⟨mid, hone, hrest⟩ := bind_eq_ok h
      obtain ⟨hjobs, hmid, hfound⟩ := runPolicy_jobs hsound (hps List.mem_cons_self) hs₀ hone
      obtain ⟨hrest, hfounds⟩ := ih mid s₁ (fun p hp => hps (List.mem_cons_of_mem _ hp)) hmid hrest
      refine ⟨?_, fun p hp => ?_⟩
      · rw [hrest, hjobs, List.flatMap_cons, List.append_assoc]
      · rcases List.mem_cons.1 hp with rfl | hp
        · exact hfound
        · exact hfounds p hp
  exact hrun policies .init s (List.Subset.refl _) ⟨CacheOf.empty, CacheOf.empty⟩ h

/-- A lookup whose store answers returns. -/
theorem lookup_isOk {α : Type} (cache : String → Slice α) (key : String)
    {ask : Except String (Slice α)} (hask : ∃ a, ask = .ok a) :
    ∃ r, lookup cache key ask = .ok r := by
  obtain ⟨a, rfl⟩ := hask
  unfold lookup
  cases cache key with
  | some items => exact ⟨_, rfl⟩
  | none => exact ⟨_, rfl⟩

theorem runPolicy_isOk (hendpoints : ∃ a, stores.askEndpoints q = .ok a)
    (hsymbols : ∃ a, stores.askSymbols q = .ok a) (s : PlanState) :
    ∃ s', runPolicy stores now s q = .ok s' := by
  have hfindE : ∃ r, findEndpoints stores q s = .ok r := by
    rw [findEndpoints_eq]
    split
    · obtain ⟨r, hr⟩ := lookup_isOk s.endpointCache q.endpointCacheKey hendpoints
      rw [hr]
      exact ⟨_, rfl⟩
    · exact ⟨_, rfl⟩
  have hfindS : ∀ s, ∃ r, findSymbols stores q s = .ok r := by
    intro s
    obtain ⟨r, hr⟩ := lookup_isOk s.symbolCache q.symbolCacheKey hsymbols
    rw [findSymbols_eq, hr]
    exact ⟨_, rfl⟩
  unfold runPolicy
  split
  · exact ⟨_, rfl⟩
  · obtain ⟨⟨endpoints, s₁⟩, hE⟩ := hfindE
    rw [hE]
    cases endpoints with
    | nil => exact ⟨_, rfl⟩
    | cons endpoint rest =>
      obtain ⟨⟨markets, s₂⟩, hS⟩ := hfindS s₁
      simp only [Except.mapError, bind, Except.bind, hS]
      split
      · exact ⟨_, rfl⟩
      · exact ⟨_, rfl⟩

/-- **A run returns** if its stores answer. -/
theorem runPolicies_isOk {policies : List Policy}
    (hanswers : ∀ p ∈ policies, (∃ a, stores.askEndpoints p = .ok a) ∧
      ∃ a, stores.askSymbols p = .ok a) :
    ∃ s, runPolicies stores now policies = .ok s := by
  unfold runPolicies
  generalize PlanState.init = s₀
  induction policies generalizing s₀ with
  | nil => exact ⟨s₀, rfl⟩
  | cons p policies ih =>
    obtain ⟨hendpoints, hsymbols⟩ := hanswers p List.mem_cons_self
    obtain ⟨s₁, hone⟩ := runPolicy_isOk hendpoints hsymbols s₀
    rw [List.foldlM_cons, hone]
    exact ih (fun q hq => hanswers q (List.mem_cons_of_mem _ hq)) s₁

/-- A job is for a symbol of the answer for its policy. -/
theorem symbol_of_job {policies : List Policy}
    (hsound : ∀ p, P p → ∀ q ∈ policies, p.symbolCacheKey = q.symbolCacheKey →
      stores.askSymbols p = stores.askSymbols q)
    (h : runPolicies stores now policies = .ok s) :
    ∀ x ∈ s.jobs, P x.1 → ∃ markets, stores.symbolsOf x.1 = .ok markets ∧
      ∃ m ∈ markets, x.2.symbolID = m.symbolID := by
  have hinit : CacheOf stores.askSymbols Policy.symbolCacheKey P PlanState.init.symbolCache ∧
      ∀ x ∈ PlanState.init.jobs, P x.1 → ∃ markets, stores.symbolsOf x.1 = .ok markets ∧
        ∃ m ∈ markets, x.2.symbolID = m.symbolID :=
    ⟨CacheOf.empty, fun _ hx => absurd hx List.not_mem_nil⟩
  refine (foldlM_induct (fun s => CacheOf stores.askSymbols Policy.symbolCacheKey P s.symbolCache ∧
    ∀ x ∈ s.jobs, P x.1 → ∃ markets, stores.symbolsOf x.1 = .ok markets ∧
      ∃ m ∈ markets, x.2.symbolID = m.symbolID) ?_ hinit h).2
  rintro q hq s s' ⟨hcache, hjobs⟩ hstep
  rcases runPolicy_cases hstep with ⟨-, hjobs', -, hcache'⟩ | ⟨-, s₁, hfind, hjobs', -, hcache'⟩ |
    ⟨-, endpoint, rest, s₁, markets, s₂, hfind, hsymbols, hjobs', -, hcache'⟩
  · rw [hjobs', hcache']
    exact ⟨hcache, hjobs⟩
  · obtain ⟨hjobs₁, hsym₁⟩ := findEndpoints_frame hfind
    rw [hjobs', hcache', hjobs₁, hsym₁]
    exact ⟨hcache, hjobs⟩
  · obtain ⟨hjobs₁, hsym₁⟩ := findEndpoints_frame hfind
    obtain ⟨hcache₂, hjobs₂, -, hanswer⟩ :=
      findSymbols_cacheOf (hsym₁ ▸ hcache) (fun p hp => hsound p hp q hq) hsymbols
    rw [hjobs', hcache', hjobs₂, hjobs₁]
    refine ⟨hcache₂, ?_⟩
    intro x hx hP
    rcases List.mem_append.1 hx with hx | hx
    · exact hjobs x hx hP
    · obtain ⟨m, hm, -, rfl⟩ := mem_jobsFor.1 hx
      refine ⟨markets, hanswer hP, m, hm, ?_⟩
      rw [toJob_plannedJob]
      rfl

end

end Aggregator.Scheduler
