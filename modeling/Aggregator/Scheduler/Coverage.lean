/-
  Which buckets the planner covers.

  A run of the planner makes jobs for the bucket its time lies in, and only for
  that one: there is no catching up.  So whether a policy's data is collected
  without a hole depends on how often the scheduler service runs.  If the runs are
  at most the interval of the policy apart, every bucket from the first run to the
  last has its job (`System.buckets_covered`), whatever workers, recovery and other
  insertions do to the queue in between.
-/
import Aggregator.Lib.Neighbours
import Aggregator.Scheduler.PlannedJobs
import Aggregator.Scheduler.Service

namespace Aggregator.Scheduler

open Aggregator.Go

/-- The key of the job of a policy for a symbol and a bucket. -/
def Policy.jobKey (p : Policy) (m : SymbolMarket) (bucket : ℤ) : String :=
  idempotencyKey p.exchange p.dataType m.symbolID m.sourceSymbol p.period bucket

/-- The length of a bucket, in nanoseconds. -/
def Policy.interval (p : Policy) : ℤ := p.intervalSeconds * second

/-- The stores answer, and the symbol is among those of the policy. -/
structure Stores.Lists (stores : Stores) (p : Policy) (m : SymbolMarket) : Prop where
  policies : ∃ policies, stores.listActivePolicies = .ok policies ∧ p ∈ policies ∧
    stores.CacheSound policies
  runs : p.Runs
  endpoint : ∃ endpoint rest, stores.endpointsOf p = .ok (endpoint :: rest)
  market : ∃ markets, stores.symbolsOf p = .ok markets ∧ m ∈ markets
  source : trimSpace m.sourceSymbol ≠ ""

/-- The bucket of a time, if its length is an `int64`. -/
theorem scheduledBucket_eq {p : Policy} (hruns : p.Runs) (hint : p.interval ≤ int64Max) (t : ℤ) :
    0 < p.interval ∧ scheduledBucket t p.intervalSeconds = p.interval * (t / p.interval) := by
  have hpos : 0 < p.intervalSeconds := by
    by_contra hneg
    exact hruns (by simp [not_lt.1 hneg])
  have hd : 0 < p.interval := Int.mul_pos hpos (by decide)
  have hmin : int64Min ≤ p.interval := le_trans (by decide) hd.le
  refine ⟨hd, ?_⟩
  rw [scheduledBucket, if_neg (not_le.2 hpos), ← Policy.interval, wrap64_of_mem hmin hint, truncate,
    if_neg (not_le.2 hd)]
  have := Int.mul_ediv_add_emod t p.interval
  omega

/-- **A run holds the job** of its bucket for every symbol listed. -/
theorem held_runAt {stores : Stores} {p : Policy} {m : SymbolMarket} (h : stores.Lists p m)
    {now dbNow : ℤ} {fault : Option String} {db : DB}
    (hok : (runAt stores now dbNow fault db).1.2 = none) :
    ∃ r ∈ (runAt stores now dbNow fault db).2.jobs,
      r.idempotencyKey = p.jobKey m (scheduledBucket now p.intervalSeconds) := by
  obtain ⟨policies, hpolicies, hp, hsound⟩ := h.policies
  obtain ⟨endpoint, rest, hendpoints⟩ := h.endpoint
  obtain ⟨markets, hmarkets, hm⟩ := h.market
  obtain ⟨ps, s, n, hps, hrun, hins⟩ :=
    (runAt_cases stores now dbNow fault db).resolve_left fun hfail => hfail.1 hok
  obtain rfl := Except.ok.inj (hpolicies.symm.trans hps)
  let job := plannedJob p endpoint (scheduledBucket now p.intervalSeconds) m
  have hjob : job ∈ s.jobs.map Prod.snd := by
    rw [(runPolicies_jobs hsound hrun).1]
    refine List.mem_map.2 ⟨(p, job), List.mem_flatMap.2 ⟨p, hp, ?_⟩, rfl⟩
    refine mem_jobsOf.2 ⟨h.runs, endpoint, rest, markets, hendpoints, hmarkets, ?_⟩
    exact mem_jobsFor.2 ⟨m, hm, h.source, rfl⟩
  obtain ⟨r, hr⟩ := Option.ne_none_iff_exists'.1 (DB.held_insertJobs hins hjob)
  obtain ⟨hmem, hkey⟩ := jobByKey_eq_some hr
  refine ⟨r, hmem, hkey.trans ?_⟩
  rw [toJob_plannedJob]
  rfl

namespace System
variable {σ E : Type} {exec : Job → E → σ → Option Error × σ} {s t : System σ}

/-- The time of a run of the planner. -/
def planTime : ServiceEvent E → Option ℤ
  | .plan _ now _ _ => some now
  | _ => none

/-- A run of the planner lists the symbol and returns no error. -/
def Plans (p : Policy) (m : SymbolMarket) (s : System σ) : ServiceEvent E → Prop
  | .plan stores now dbNow fault =>
    stores.Lists p m ∧ (runAt stores now dbNow fault s.db).1.2 = none
  | _ => True

/-- A key that is held stays held. -/
theorem held_of_run {es : List (ServiceEvent E)} (h : Run (Serves exec) s es t) {key : String}
    (hs : ∃ r ∈ s.db.jobs, r.idempotencyKey = key) : ∃ r ∈ t.db.jobs, r.idempotencyKey = key := by
  obtain ⟨r, hr, rfl⟩ := hs
  obtain ⟨r', hr', hk⟩ := kept_of_run h r hr
  exact ⟨r', hr', congrArg Identity.idempotencyKey hk.identity⟩

theorem held_of_planTime {p : Policy} {m : SymbolMarket} {es : List (ServiceEvent E)}
    (h : Run (Restrict (Serves exec) (Plans p m)) s es t) {now : ℤ}
    (hnow : now ∈ es.filterMap planTime) :
    ∃ r ∈ t.db.jobs, r.idempotencyKey = p.jobKey m (scheduledBucket now p.intervalSeconds) := by
  induction h with
  | nil s => cases hnow
  | @cons s s' t e es he hrest ih =>
    obtain ⟨hplans, hserves⟩ := he
    rw [List.filterMap_cons] at hnow
    cases hserves with
    | queue _ => exact ih hnow
    | insert _ => exact ih hnow
    | plan =>
      rcases List.mem_cons.1 hnow with rfl | hnow
      · exact held_of_run (hrest.mono fun _ _ _ h => h.2) (held_runAt hplans.1 hplans.2)
      · exact ih hnow

/-- **No bucket is left out.**  If the runs of the planner are at most an interval
    apart, then from the bucket of the first run to that of the last every bucket
    has its job, whatever else happens to the queue. -/
theorem buckets_covered {p : Policy} {m : SymbolMarket} (hruns : p.Runs)
    (hint : p.interval ≤ int64Max) {es : List (ServiceEvent E)}
    (h : Run (Restrict (Serves exec) (Plans p m)) s es t)
    (hsteps : (es.filterMap planTime).IsChain fun a b => b ≤ a + p.interval) {first last : ℤ}
    (hfirst : (es.filterMap planTime).head? = some first)
    (hlast : (es.filterMap planTime).getLast? = some last) (bucket : ℤ)
    (hgrid : scheduledBucket bucket p.intervalSeconds = bucket)
    (hge : scheduledBucket first p.intervalSeconds ≤ bucket)
    (hle : bucket ≤ scheduledBucket last p.intervalSeconds) :
    ∃ r ∈ t.db.jobs, r.idempotencyKey = p.jobKey m bucket := by
  obtain ⟨hd, hbucket⟩ := scheduledBucket_eq hruns hint bucket
  rw [(scheduledBucket_eq hruns hint first).2, ← hgrid, hbucket] at hge
  rw [(scheduledBucket_eq hruns hint last).2, ← hgrid, hbucket] at hle
  obtain ⟨now, hnow, hcell⟩ := exists_mem_cell hd hsteps hfirst hlast
    (le_of_mul_le_mul_left hge hd) (le_of_mul_le_mul_left hle hd)
  obtain ⟨r, hr, hkey⟩ := held_of_planTime h hnow
  refine ⟨r, hr, hkey.trans ?_⟩
  rw [(scheduledBucket_eq hruns hint now).2, hcell, ← hbucket, hgrid]

/-- The first of the overlapping policies. -/
def minutely : Policy := ⟨1, "binance", "futures", "ticker", "top100", "", 60, 10, true, 3⟩

theorem lists_overlapping : overlappingStores.Lists minutely ⟨1, "BTCUSDT"⟩ where
  policies := ⟨overlapping, rfl, List.mem_cons_self,
    .of_colon_notMem overlappingStores (by decide)⟩
  runs := by decide
  endpoint := ⟨⟨7, "ticker", 1, 10000, 0, 0⟩, [], rfl⟩
  market := ⟨[⟨1, "BTCUSDT"⟩], rfl, List.mem_cons_self⟩
  source := by decide

/-- The planner runs at 65 s and at 125 s, and a worker claims in between. -/
theorem buckets_covered_minutely :
    ∃ t : System Unit, Run (Restrict (Serves plain) (Plans minutely ⟨1, "BTCUSDT"⟩)) (oneJob 3)
        [.plan overlappingStores (65 * second) 0 none,
          .queue (.claim 0 10 (70 * second) [] .inOrder),
          .plan overlappingStores (125 * second) 0 none] t ∧
      ∀ bucket ∈ [60 * second, 120 * second],
        ∃ r ∈ t.db.jobs, r.idempotencyKey = minutely.jobKey ⟨1, "BTCUSDT"⟩ bucket := by
  let s₁ := (oneJob 3).withDB (runAt overlappingStores (65 * second) 0 none (oneJob 3).db).2
  have h₁ : (runAt overlappingStores (65 * second) 0 none (oneJob 3).db).1.2 = none := by
    decide +kernel
  have hclaim : (s₁.step plain (.claim 0 10 (70 * second) [] .inOrder)).isSome := by decide +kernel
  obtain ⟨s₂, hs₂⟩ := Option.isSome_iff_exists.1 hclaim
  have h₂ : (runAt overlappingStores (125 * second) 0 none s₂.db).1.2 = none := by
    have hall : ((s₁.step plain (.claim 0 10 (70 * second) [] .inOrder)).map fun s =>
        (runAt overlappingStores (125 * second) 0 none s.db).1.2) = some none := by decide +kernel
    rw [hs₂] at hall
    exact Option.some.inj hall
  have hrun : Run (Restrict (Serves plain) (Plans minutely ⟨1, "BTCUSDT"⟩)) (oneJob 3)
      [.plan overlappingStores (65 * second) 0 none,
        .queue (.claim 0 10 (70 * second) [] .inOrder),
        .plan overlappingStores (125 * second) 0 none]
      (s₂.withDB (runAt overlappingStores (125 * second) 0 none s₂.db).2) :=
    .cons ⟨⟨lists_overlapping, h₁⟩, .plan⟩ (.cons ⟨trivial, .queue hs₂⟩
      (.cons ⟨⟨lists_overlapping, h₂⟩, .plan⟩ (.nil _)))
  refine ⟨_, hrun, fun bucket hbucket => ?_⟩
  have hgrid : ∀ b ∈ [60 * second, 120 * second],
      scheduledBucket b minutely.intervalSeconds = b ∧
        scheduledBucket (65 * second) minutely.intervalSeconds ≤ b ∧
        b ≤ scheduledBucket (125 * second) minutely.intervalSeconds := by decide
  obtain ⟨hb, hge, hle⟩ := hgrid bucket hbucket
  have hsteps : [65 * second, 125 * second].IsChain fun a b => b ≤ a + minutely.interval :=
    .cons_cons (by decide) (.singleton _)
  exact buckets_covered (by decide) (by decide) hrun hsteps rfl rfl bucket hb hge hle

end System

end Aggregator.Scheduler
