/-
  Retention policies, the tables they are allowed for, and the planner
  (`internal/retention/models.go`, `specs.go`, `planner.go`).

  `validatePolicy` checks a policy against the specification of its table;
  `plan` orders the enabled policies and computes, for each, the cutoff and
  whether partitions are dropped.
-/
import Aggregator.Go.Time
import Aggregator.Go.Strings
import Aggregator.Lib.Checks
import Mathlib.Data.List.Sort

namespace Aggregator.Retention

open Aggregator.Go

structure Policy where
  id : ℤ
  tableName : String
  timeColumn : String
  intervalColumn : String
  intervalValue : String
  retentionDays : ℤ
  chunkSize : ℤ
  enabled : Bool
  dryRun : Bool
  rollupBeforeDelete : Bool
  priority : ℤ
  maxRowsPerRun : ℤ
  timeoutSeconds : ℤ
  partitionStrategy : String
  minRetentionDays : ℤ
deriving DecidableEq, Repr

structure TableSpec where
  name : String
  timeColumns : List String
  intervalColumns : List String
  minRetentionDays : ℤ
  partitionPreferred : Bool
deriving DecidableEq, Repr

def tableSpecs : List TableSpec :=
  [⟨"derivative_klines", ["open_time"], ["interval"], 7, true⟩,
   ⟨"derivative_market_snapshots", ["snapshot_time"], [], 7, true⟩,
   ⟨"open_interest_snapshots", ["snapshot_time"], [], 14, true⟩,
   ⟨"funding_rate_snapshots", ["snapshot_time"], [], 30, false⟩,
   ⟨"funding_rate_history", ["funding_time"], [], 365, false⟩,
   ⟨"long_short_ratio_snapshots", ["snapshot_time"], [], 90, false⟩,
   ⟨"taker_flow_snapshots", ["snapshot_time"], [], 30, true⟩,
   ⟨"cvd_snapshots", ["snapshot_time"], [], 30, true⟩,
   ⟨"derivative_aggregated_snapshots", ["snapshot_time"], [], 14, true⟩,
   ⟨"liquidation_events", ["event_time"], [], 7, true⟩,
   ⟨"liquidation_aggregates", ["bucket_time"], ["period"], 30, false⟩,
   ⟨"orderbook_imbalance_snapshots", ["snapshot_time"], [], 7, true⟩,
   ⟨"orderbook_depth_snapshots", ["snapshot_time"], [], 1, false⟩,
   ⟨"exchange_request_logs", ["captured_at"], [], 7, false⟩,
   ⟨"raw_exchange_payloads", ["captured_at", "retention_expires_at"], [], 1, false⟩,
   ⟨"failed_collection_jobs", ["failed_at"], [], 30, false⟩,
   ⟨"data_collection_runs", ["started_at"], [], 30, false⟩,
   ⟨"data_quality_issues", ["last_seen_at"], [], 90, false⟩]

def specFor (tableName : String) : Option TableSpec :=
  tableSpecs.find? fun spec => spec.name = toLower (trimSpace tableName)

def validatePolicy (policy : Policy) : Except String TableSpec :=
  let tableName := toLower (trimSpace policy.tableName)
  match specFor tableName with
  | none => .error s!"retention policy table {policy.tableName.quote} is not supported"
  | some spec =>
    if policy.timeColumn ∉ spec.timeColumns then
      .error
        s!"retention policy table {tableName} cannot use time column {policy.timeColumn.quote}"
    else if policy.intervalColumn ≠ "" ∧ policy.intervalColumn ∉ spec.intervalColumns then
      .error
        s!"retention policy table {tableName} cannot use interval column {policy.intervalColumn.quote}"
    else if policy.intervalColumn ≠ "" ∧ trimSpace policy.intervalValue = "" then
      .error s!"retention policy table {tableName} interval value is required"
    else if policy.retentionDays ≤ 0 then
      .error s!"retention_days must be greater than 0 for {tableName}"
    else
      let minDays := max spec.minRetentionDays policy.minRetentionDays
      if policy.retentionDays < minDays then
        .error
          s!"retention_days {policy.retentionDays} is below safety minimum {minDays} for {tableName}"
      else if policy.chunkSize ≤ 0 then
        .error s!"chunk_size must be greater than 0 for {tableName}"
      else if policy.maxRowsPerRun ≤ 0 then
        .error s!"max_rows_per_run must be greater than 0 for {tableName}"
      else if policy.timeoutSeconds ≤ 0 then
        .error s!"timeout_seconds must be greater than 0 for {tableName}"
      else .ok spec

theorem validatePolicy_iff {policy : Policy} {spec : TableSpec} :
    validatePolicy policy = .ok spec ↔
      specFor (toLower (trimSpace policy.tableName)) = some spec ∧
      policy.timeColumn ∈ spec.timeColumns ∧
      (policy.intervalColumn ≠ "" →
        policy.intervalColumn ∈ spec.intervalColumns ∧ trimSpace policy.intervalValue ≠ "") ∧
      0 < policy.retentionDays ∧ max spec.minRetentionDays policy.minRetentionDays ≤
        policy.retentionDays ∧
      0 < policy.chunkSize ∧ 0 < policy.maxRowsPerRun ∧ 0 < policy.timeoutSeconds := by
  unfold validatePolicy
  dsimp only
  generalize specFor (toLower (trimSpace policy.tableName)) = found
  cases found with
  | none => simp only [reduceCtorEq, false_and]
  | some spec' =>
    simp only [elseIf_eq_ok, Option.some.injEq, Except.ok.injEq, not_and, not_not, not_le, not_lt]
    constructor
    · rintro ⟨htime, hcol, hval, hdays, hmin, hchunk, hrows, htimeout, rfl⟩
      exact ⟨rfl, htime, fun h => ⟨hcol h, hval h⟩, hdays, hmin, hchunk, hrows, htimeout⟩
    · rintro ⟨rfl, htime, hcol, hdays, hmin, hchunk, hrows, htimeout⟩
      exact ⟨htime, fun h => (hcol h).1, fun h => (hcol h).2, hdays, hmin, hchunk, hrows, htimeout,
        rfl⟩

/-- A valid policy keeps rows for the minimum of its table. -/
theorem minRetentionDays_le {policy : Policy} {spec : TableSpec}
    (h : validatePolicy policy = .ok spec) : spec.minRetentionDays ≤ policy.retentionDays := by
  obtain ⟨-, -, -, -, hmin, -⟩ := validatePolicy_iff.1 h
  exact (le_max_left _ _).trans hmin

/-! ## The planner -/

structure PlanItem where
  policy : Policy
  cutoffTime : ℤ
  dryRun : Bool
  usePartitionDrop : Bool
deriving DecidableEq, Repr

def shouldUsePartitionDrop (policy : Policy) (spec : TableSpec) : Bool :=
  if policy.partitionStrategy = "drop" then true
  else if policy.partitionStrategy = "delete" then false
  else spec.partitionPreferred

/-- `now.AddDate(0, 0, -days)`. -/
def cutoff (now days : ℤ) : ℤ := now - days * day

/-- The plan item of one policy. -/
def planItem (now : ℤ) (policy : Policy) (spec : TableSpec) : PlanItem where
  policy := policy
  cutoffTime := cutoff now policy.retentionDays
  dryRun := policy.dryRun
  usePartitionDrop := shouldUsePartitionDrop policy spec

/-- The order of policies; sorting by it is stable. -/
def policyOrder (p q : Policy) : Bool :=
  p.priority < q.priority || (p.priority = q.priority && p.id ≤ q.id)

/-- `Planner.Plan`. -/
def plan (now : ℤ) (policies : List Policy) : Except String (List PlanItem) :=
  ((policies.insertionSort (policyOrder · ·)).filter Policy.enabled).mapM fun policy =>
    (validatePolicy policy).map (planItem now policy)

/-- An item of a plan is the one of an enabled policy that passed the check. -/
theorem mem_plan {now : ℤ} {policies : List Policy} {items : List PlanItem} {item : PlanItem}
    (h : plan now policies = .ok items) (hi : item ∈ items) :
    item.policy ∈ policies ∧ item.policy.enabled ∧ ∃ spec,
      validatePolicy item.policy = .ok spec ∧ item = planItem now item.policy spec := by
  obtain ⟨policy, hp, hok⟩ := mem_of_mapM_ok h hi
  rw [List.mem_filter, List.mem_insertionSort] at hp
  cases hv : validatePolicy policy with
  | error e => rw [hv] at hok; cases hok
  | ok spec =>
    rw [hv] at hok
    obtain rfl := Except.ok.inj hok
    exact ⟨hp.1, hp.2, spec, hv, rfl⟩

end Aggregator.Retention
