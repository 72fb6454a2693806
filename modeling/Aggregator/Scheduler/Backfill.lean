/-
  Planning a backfill (`internal/scheduler/backfill.go`).

  The buckets of a request go from its start to its end in steps of the interval,
  and one job is made for each, up to a limit.  The loop runs with fuel: a
  request whose interval overflows to a negative step goes back in time and
  never ends.

  Realtime and backfill jobs share the keys of the job table, and a key that is
  held is left alone whatever the state of its job.

  * `planBackfillJobs_eq`: a plan that returns is the list of the buckets, and
    `planBackfillJobs_returns`: it returns unless the interval overflows;
  * `backfill_scheduled_iff`: every bucket has a job that is pending, running or
    done after the insertion exactly when no key is held by another job or by one
    that has failed;
  * `deadLetter_blocks_backfill`: a job in `dead_letter` is not scheduled again.
-/
import Aggregator.Scheduler.Insert

namespace Aggregator.Scheduler

open Aggregator.Go

structure BackfillRequest where
  exchange : String
  dataType : String
  tier : String
  symbolID : ℤ
  sourceSymbol : String
  period : String
  startTime : ℤ
  endTime : ℤ
  intervalSeconds : ℤ
  priority : ℤ
  maxRetry : ℤ
  endpointMetadata : RuntimeMetadata
  parentGapID : ℤ
  maxJobs : ℤ
  realtimeLag : ℤ
  realtimeLagPauseAfter : ℤ

namespace BackfillRequest

def paused (req : BackfillRequest) : Bool :=
  0 < req.realtimeLagPauseAfter && req.realtimeLagPauseAfter < req.realtimeLag

def withDefaults (req : BackfillRequest) : BackfillRequest :=
  { req with
    priority := if req.priority ≤ 0 then 1000 else req.priority
    maxRetry := if req.maxRetry ≤ 0 then 3 else req.maxRetry
    maxJobs := if req.maxJobs ≤ 0 then 1000 else req.maxJobs }

/-- `time.Duration(req.IntervalSeconds) * time.Second`. -/
def step (req : BackfillRequest) : ℤ := wrap64 (req.intervalSeconds * second)

/-- The key of the job of a bucket. -/
def key (req : BackfillRequest) (bucket : ℤ) : String :=
  idempotencyKey req.exchange req.dataType req.symbolID req.sourceSymbol req.period bucket

end BackfillRequest

/-- The checkpoint and the metadata of a job. -/
def backfillMetadata (req : BackfillRequest) (bucket : ℤ) : Json × Json :=
  let checkpoint : Json := .obj
    [("bucket", .str (formatRFC3339 bucket)), ("start_time", .str (formatRFC3339 req.startTime)),
     ("end_time", .str (formatRFC3339 req.endTime)), ("parent_gap_id", .int req.parentGapID)]
  let endpoint := req.endpointMetadata
  (checkpoint, .obj
    [("mode", .str "backfill"), ("requires_endpoint", .bool endpoint.requiresEndpoint),
     ("endpoint_id", .int endpoint.endpointID), ("endpoint_name", .str endpoint.endpointName),
     ("endpoint_data_type", .str endpoint.endpointDataType),
     ("request_weight", .int endpoint.requestWeight), ("timeout_ms", .int endpoint.timeoutMS),
     ("backfill", checkpoint), ("start_time", .str (formatRFC3339 bucket)),
     ("end_time", .str (formatRFC3339 (bucket + req.step)))])

def backfillJob (req : BackfillRequest) (bucket : ℤ) : NewJob :=
  let (checkpoint, metadata) := backfillMetadata req bucket
  { Job.planned 0 req.exchange req.dataType req.tier req.symbolID req.sourceSymbol req.period
      req.priority req.maxRetry metadata bucket with
    jobMode := "backfill"
    parentGapID := req.parentGapID
    backfillCheckpoint := some checkpoint }

/-- The loop over buckets; `none` if it is still running when the fuel is used
    up. -/
def backfillLoop (req : BackfillRequest) : ℕ → ℤ → List NewJob → Option (List NewJob)
  | 0, _, _ => none
  | fuel + 1, bucket, jobs =>
    if ¬bucket < req.endTime then some jobs
    else if bucket < req.startTime then backfillLoop req fuel (bucket + req.step) jobs
    else if req.maxJobs ≤ jobs.length then some jobs
    else backfillLoop req fuel (bucket + req.step) (jobs ++ [backfillJob req bucket])

/-- `PlanBackfillJobs`. -/
def planBackfillJobs (fuel : ℕ) (req : BackfillRequest) : Option (Except String (List NewJob)) :=
  if req.paused then some (.ok [])
  else if req.intervalSeconds ≤ 0 then some (.error "interval_seconds must be greater than 0")
  else if isZero req.startTime || isZero req.endTime || !(req.startTime < req.endTime) then
    some (.error "valid backfill start/end are required")
  else if req.symbolID ≤ 0 || req.sourceSymbol = "" then
    some (.error "symbol_id and source_symbol are required")
  else
    let req := req.withDefaults
    (backfillLoop req fuel (scheduledBucket req.startTime req.intervalSeconds) []).map .ok

/-! ## The buckets of a request -/

namespace BackfillRequest

/-- The first bucket that does not start before the request does. -/
def firstBucket (req : BackfillRequest) : ℤ :=
  let bucket := scheduledBucket req.startTime req.intervalSeconds
  if bucket < req.startTime then bucket + req.step else bucket

/-- How many buckets there are before the end, up to the limit. -/
def bucketCount (req : BackfillRequest) : ℕ :=
  let maxJobs := req.withDefaults.maxJobs.toNat
  if req.step ≤ 0 then maxJobs
  else min maxJobs ((req.endTime - req.firstBucket + req.step - 1) / req.step).toNat

/-- The buckets a backfill plans. -/
def buckets (req : BackfillRequest) : List ℤ :=
  (List.range req.bucketCount).map fun i : ℕ => req.firstBucket + i * req.step

variable {req : BackfillRequest}

theorem maxJobs_pos (req : BackfillRequest) : 0 < req.withDefaults.maxJobs := by
  simp only [withDefaults]
  split <;> omega

theorem firstBucket_of_nonpos (hint : 0 < req.intervalSeconds) (hstep : req.step ≤ 0) :
    req.firstBucket = req.startTime := by
  have hbucket : scheduledBucket req.startTime req.intervalSeconds = req.startTime := by
    rw [scheduledBucket, if_neg (by omega), truncate]
    exact if_pos hstep
  simp only [firstBucket, hbucket, lt_self_iff_false, ↓reduceIte]

theorem start_le_firstBucket (hint : 0 < req.intervalSeconds) :
    req.startTime ≤ req.firstBucket := by
  by_cases hstep : req.step ≤ 0
  · rw [firstBucket_of_nonpos hint hstep]
  · have hstep' : ¬wrap64 (req.intervalSeconds * second) ≤ 0 := hstep
    have hmod := Int.emod_lt_of_pos req.startTime (not_le.1 hstep')
    have hbucket : scheduledBucket req.startTime req.intervalSeconds =
        req.startTime - req.startTime % req.step := by
      rw [scheduledBucket, if_neg (by omega), truncate, if_neg hstep']
      rfl
    simp only [firstBucket, hbucket]
    change req.startTime % req.step < req.step at hmod
    split <;> omega

/-- The requests that are not rejected. -/
structure Valid (req : BackfillRequest) : Prop where
  interval : 0 < req.intervalSeconds
  range : req.startTime < req.endTime

/-- Which buckets are planned. -/
theorem lt_bucketCount (hreq : req.Valid) (hstep : 0 ≤ req.step) {i : ℕ} :
    i < req.bucketCount ↔
      (i : ℤ) < req.withDefaults.maxJobs ∧ req.firstBucket + i * req.step < req.endTime := by
  rcases hstep.eq_or_lt with hzero | hpos
  · have hfirst := firstBucket_of_nonpos hreq.interval hzero.symm.le
    have hrange := hreq.range
    simp only [bucketCount, ← hzero, le_refl, ↓reduceIte, hfirst, mul_zero, add_zero, hrange,
      and_true]
    omega
  · have hdiv : (i : ℤ) < (req.endTime - req.firstBucket + req.step - 1) / req.step ↔
        req.firstBucket + i * req.step < req.endTime := by
      rw [Int.lt_iff_add_one_le, Int.le_ediv_iff_mul_le hpos]
      constructor <;> intro h <;> linarith
    simp only [bucketCount, not_le.2 hpos, ↓reduceIte, lt_min_iff]
    rw [← hdiv]
    omega

/-- The jobs of the first buckets. -/
def jobsUpTo (req : BackfillRequest) (i : ℕ) : List NewJob :=
  (List.range i).map fun i : ℕ => backfillJob req.withDefaults (req.firstBucket + i * req.step)

/-- **One pass of the loop**, once it has reached the start of the request: it
    adds the job of the next bucket, or it ends after the last one. -/
theorem backfillLoop_succ (hreq : req.Valid) (hstep : 0 ≤ req.step) {i : ℕ}
    (hi : i ≤ req.bucketCount) (fuel : ℕ) :
    backfillLoop req.withDefaults (fuel + 1) (req.firstBucket + i * req.step) (req.jobsUpTo i) =
      if i < req.bucketCount then
        backfillLoop req.withDefaults fuel (req.firstBucket + (i + 1 : ℕ) * req.step)
          (req.jobsUpTo (i + 1))
      else some (req.jobsUpTo req.bucketCount) := by
  have hstart : ¬req.firstBucket + i * req.step < req.startTime := by
    have := start_le_firstBucket hreq.interval
    have : 0 ≤ (i : ℤ) * req.step := by positivity
    omega
  have hlen : (req.jobsUpTo i).length = i := by simp [jobsUpTo]
  have hcount := lt_bucketCount hreq hstep (i := i)
  rw [backfillLoop]
  change (if ¬_ < req.endTime then _ else if _ < req.startTime then _ else _) = _
  rw [if_neg hstart, hlen]
  by_cases hlt : i < req.bucketCount
  · obtain ⟨hmax, hend⟩ := hcount.1 hlt
    rw [if_pos hlt, if_neg (not_not.2 hend), if_neg (not_le.2 hmax)]
    have hnext : req.firstBucket + (i + 1 : ℕ) * req.step =
        req.firstBucket + i * req.step + req.withDefaults.step := by
      push_cast
      change _ = req.firstBucket + i * req.step + req.step
      ring
    have hjobs : req.jobsUpTo (i + 1) = req.jobsUpTo i ++
        [backfillJob req.withDefaults (req.firstBucket + i * req.step)] := by
      simp only [jobsUpTo, List.range_succ, List.map_append, List.map_cons, List.map_nil]
    rw [hnext, hjobs]
  · have hlast : i = req.bucketCount := by omega
    rw [if_neg hlt, ← hlast]
    by_cases hend : req.firstBucket + i * req.step < req.endTime
    · have hmax : req.withDefaults.maxJobs ≤ i := by
        by_contra hmax
        exact hlt (hcount.2 ⟨not_le.1 hmax, hend⟩)
      rw [if_neg (not_not.2 hend), if_pos hmax]
    · rw [if_pos hend]

/-- From any of the buckets on, the loop plans the rest of them. -/
theorem backfillLoop_eq (hreq : req.Valid) (hstep : 0 ≤ req.step) {fuel i : ℕ}
    (hi : i ≤ req.bucketCount) {jobs : List NewJob}
    (h : backfillLoop req.withDefaults fuel (req.firstBucket + i * req.step) (req.jobsUpTo i) =
      some jobs) : jobs = req.jobsUpTo req.bucketCount := by
  induction fuel generalizing i with
  | zero => cases h
  | succ fuel ih =>
    rw [backfillLoop_succ hreq hstep hi] at h
    split at h
    · exact ih (by omega) h
    · exact (Option.some.inj h).symm

theorem backfillLoop_isSome (hreq : req.Valid) (hstep : 0 ≤ req.step) {fuel i : ℕ}
    (hi : i ≤ req.bucketCount) (hfuel : req.bucketCount < i + fuel) :
    (backfillLoop req.withDefaults fuel (req.firstBucket + i * req.step)
      (req.jobsUpTo i)).isSome := by
  induction fuel generalizing i with
  | zero => omega
  | succ fuel ih =>
    rw [backfillLoop_succ hreq hstep hi]
    split
    · exact ih (by omega) (by omega)
    · rfl

/-- A negative step leads away from the end. -/
theorem backfillLoop_of_neg (hreq : req.Valid) (hstep : req.step < 0) {fuel : ℕ} {bucket : ℤ}
    (hb : bucket < req.startTime) (jobs : List NewJob) :
    backfillLoop req.withDefaults fuel bucket jobs = none := by
  induction fuel generalizing bucket with
  | zero => rfl
  | succ fuel ih =>
    have hend : bucket < req.endTime := hb.trans hreq.range
    have hnext : bucket + req.withDefaults.step < req.startTime := by
      change bucket + req.step < req.startTime
      omega
    rw [backfillLoop]
    change (if ¬bucket < req.endTime then _ else if bucket < req.startTime then _ else _) = _
    rw [if_neg (not_not.2 hend), if_pos hb]
    exact ih hnext

/-- The loop from the bucket of the start is the loop from the first bucket, with
    at most one pass more. -/
theorem backfillLoop_start (hreq : req.Valid) (fuel : ℕ) :
    ∃ fuel', fuel ≤ fuel' + 1 ∧ backfillLoop req.withDefaults fuel
        (scheduledBucket req.startTime req.intervalSeconds) [] =
      backfillLoop req.withDefaults fuel' req.firstBucket [] := by
  by_cases hb : scheduledBucket req.startTime req.intervalSeconds < req.startTime
  · cases fuel with
    | zero => exact ⟨0, Nat.zero_le 1, rfl⟩
    | succ fuel =>
      refine ⟨fuel, le_rfl, ?_⟩
      have hend := hb.trans hreq.range
      rw [backfillLoop]
      change (if ¬_ < req.endTime then _ else if _ < req.startTime then _ else _) = _
      rw [if_neg (not_not.2 hend), if_pos hb, firstBucket]
      simp only [hb, ↓reduceIte]
      rfl
  · refine ⟨fuel, Nat.le_succ fuel, ?_⟩
    simp only [firstBucket, hb, ↓reduceIte]

/-- With a negative step the loop does not end. -/
theorem step_nonneg_of_backfillLoop (hreq : req.Valid) {fuel : ℕ} {jobs : List NewJob}
    (h : backfillLoop req.withDefaults fuel req.firstBucket [] = some jobs) : 0 ≤ req.step := by
  by_contra hneg
  have hneg := not_le.1 hneg
  cases fuel with
  | zero => cases h
  | succ fuel =>
    have hmax := req.maxJobs_pos
    rw [firstBucket_of_nonpos hreq.interval hneg.le, backfillLoop] at h
    change (if ¬req.startTime < req.endTime then _
      else if req.startTime < req.startTime then _ else _) = _ at h
    rw [if_neg (not_not.2 hreq.range), if_neg (lt_irrefl _), List.length_nil,
      if_neg (by push_cast; omega), backfillLoop_of_neg hreq hneg] at h
    · cases h
    · change req.startTime + req.step < req.startTime
      omega

theorem bucketCount_le (req : BackfillRequest) :
    req.bucketCount ≤ req.withDefaults.maxJobs.toNat := by
  simp only [bucketCount]
  split
  · exact le_rfl
  · exact min_le_left _ _

theorem valid_of_checks (hint : ¬req.intervalSeconds ≤ 0)
    (hrange : ¬(isZero req.startTime || isZero req.endTime ||
      !decide (req.startTime < req.endTime)) = true) : req.Valid := by
  refine ⟨not_le.1 hint, ?_⟩
  simp only [Bool.or_eq_true, not_or, Bool.not_eq_true, Bool.not_eq_false', decide_eq_true_eq]
    at hrange
  exact hrange.2

end BackfillRequest

section
variable {req : BackfillRequest} {fuel : ℕ} {jobs : List NewJob}

/-- A plan that returns is what the loop from the first bucket on returns. -/
theorem backfillLoop_of_planBackfillJobs (hlag : req.paused = false)
    (h : planBackfillJobs fuel req = some (.ok jobs)) :
    req.Valid ∧ ∃ fuel', backfillLoop req.withDefaults fuel' req.firstBucket [] = some jobs := by
  unfold planBackfillJobs at h
  rw [if_neg (by simp [hlag])] at h
  split_ifs at h with hint hrange hsymbol
  · simp only [Option.some.injEq, reduceCtorEq] at h
  · simp only [Option.some.injEq, reduceCtorEq] at h
  · simp only [Option.some.injEq, reduceCtorEq] at h
  · have hreq := BackfillRequest.valid_of_checks hint hrange
    obtain ⟨result, hloop, hok⟩ := Option.map_eq_some_iff.1 h
    obtain rfl := Except.ok.inj hok
    obtain ⟨fuel', -, hstart⟩ := BackfillRequest.backfillLoop_start hreq fuel
    exact ⟨hreq, fuel', hstart.symm.trans hloop⟩

theorem step_nonneg_of_planBackfillJobs (hlag : req.paused = false)
    (h : planBackfillJobs fuel req = some (.ok jobs)) : 0 ≤ req.step := by
  obtain ⟨hreq, fuel', hloop⟩ := backfillLoop_of_planBackfillJobs hlag h
  exact BackfillRequest.step_nonneg_of_backfillLoop hreq hloop

/-- **A plan that returns** has one job for each bucket. -/
theorem planBackfillJobs_eq (hlag : req.paused = false)
    (h : planBackfillJobs fuel req = some (.ok jobs)) :
    jobs = req.buckets.map (backfillJob req.withDefaults) := by
  have hstep := step_nonneg_of_planBackfillJobs hlag h
  obtain ⟨hreq, fuel', hloop⟩ := backfillLoop_of_planBackfillJobs hlag h
  have hzero : req.firstBucket = req.firstBucket + (0 : ℕ) * req.step := by
    rw [Nat.cast_zero, zero_mul, add_zero]
  rw [hzero] at hloop
  have hjobs := BackfillRequest.backfillLoop_eq hreq hstep (Nat.zero_le _) hloop
  rw [hjobs, BackfillRequest.jobsUpTo, BackfillRequest.buckets, List.map_map]
  rfl

/-- **A plan returns** unless the interval overflows. -/
theorem planBackfillJobs_returns (hstep : 0 ≤ req.step)
    (hfuel : req.withDefaults.maxJobs.toNat + 2 ≤ fuel) : (planBackfillJobs fuel req).isSome := by
  unfold planBackfillJobs
  split_ifs with hlag hint hrange hsymbol
  · rfl
  · rfl
  · rfl
  · rfl
  · have hreq := BackfillRequest.valid_of_checks hint hrange
    obtain ⟨fuel', hle, hstart⟩ := BackfillRequest.backfillLoop_start hreq fuel
    have hcount := req.bucketCount_le
    have hsome : (backfillLoop req.withDefaults fuel' (req.firstBucket + (0 : ℕ) * req.step)
        (req.jobsUpTo 0)).isSome :=
      BackfillRequest.backfillLoop_isSome hreq hstep (Nat.zero_le _) (by omega)
    rw [Nat.cast_zero, zero_mul, add_zero] at hsome
    rw [Option.isSome_map]
    exact hstart ▸ hsome

end

/-! ## What an insertion leaves -/

/-- The row is the job the request asks for at a bucket, and it is still to be
    done, being done or done. -/
structure BackfillRequest.Covers (req : BackfillRequest) (bucket : ℤ) (row : Job) : Prop where
  key : row.idempotencyKey = req.key bucket
  exchange : row.exchange = req.exchange
  dataType : row.dataType = req.dataType
  symbolID : row.symbolID = req.symbolID
  sourceSymbol : row.sourceSymbol = req.sourceSymbol
  period : row.period = req.period
  status : row.status ∈ [JobStatus.pending, .running, .succeeded]

theorem covers_inserted (req : BackfillRequest) (bucket id now : ℤ) :
    req.Covers bucket ((backfillJob req.withDefaults bucket).toJob.inserted id now) :=
  ⟨rfl, rfl, rfl, rfl, rfl, rfl, List.mem_cons_self⟩

theorem backfill_scheduled_iff {req : BackfillRequest} {fuel : ℕ} {jobs : List NewJob}
    (hlag : req.paused = false) (hplan : planBackfillJobs fuel req = some (.ok jobs))
    {db db' : DB} (hdb : db.KeysUnique) {now n : ℤ}
    (hins : db.insertJobs jobs now = .ok (n, db')) :
    (∀ bucket ∈ req.buckets, ∃ row ∈ db'.jobs, req.Covers bucket row) ↔
      ∀ bucket ∈ req.buckets, ∀ row ∈ db.jobs, row.idempotencyKey = req.key bucket →
        req.Covers bucket row := by
  obtain rfl := planBackfillJobs_eq hlag hplan
  have hunique := hdb.insertJobs hins
  constructor
  · intro h bucket hb row hrow hkey
    obtain ⟨row', hrow', hcov⟩ := h bucket hb
    have hold := (DB.jobByKey_insertJobs hins (req.key bucket)).1 row
      (hdb.mem_iff.1 ⟨hrow, hkey⟩)
    have hnew := hunique.mem_iff.1 ⟨hrow', hcov.key⟩
    rw [hold] at hnew
    exact Option.some.inj hnew ▸ hcov
  · intro h bucket hb
    obtain ⟨hheld, hfree⟩ := DB.jobByKey_insertJobs hins (req.key bucket)
    cases hold : jobByKey db.jobs (req.key bucket) with
    | some row =>
      obtain ⟨hrow, hkey⟩ := jobByKey_eq_some hold
      exact ⟨row, (jobByKey_eq_some (hheld row hold)).1, h bucket hb row hrow hkey⟩
    | none =>
      -- the key is free: the first job that has it is inserted
      obtain ⟨id, hid⟩ := hfree hold
      have hne := DB.held_insertJobs hins (List.mem_map_of_mem hb)
      obtain ⟨row, hrow⟩ := Option.ne_none_iff_exists'.1 hne
      change jobByKey db'.jobs (req.key bucket) = some row at hrow
      rw [hrow] at hid
      obtain ⟨job, hjob, hins⟩ := Option.map_eq_some_iff.1 hid.symm
      obtain ⟨new, hnew, rfl⟩ := List.mem_map.1 (List.mem_of_find?_eq_some hjob)
      obtain ⟨bucket', -, rfl⟩ := List.mem_map.1 hnew
      have hcov := covers_inserted req bucket' id now
      rw [hins] at hcov
      obtain ⟨hmem, hkey⟩ := jobByKey_eq_some hrow
      exact ⟨row, hmem, { hcov with key := hkey }⟩

/-! ## A gap of two minutes -/

/-- A request for the one-minute candles of two buckets. -/
def gapRequest : BackfillRequest where
  exchange := "binance"
  dataType := "kline"
  tier := "all"
  symbolID := 1
  sourceSymbol := "BTCUSDT"
  period := "1m"
  startTime := minute
  endTime := 3 * minute
  intervalSeconds := 60
  priority := 0
  maxRetry := 0
  endpointMetadata := .default "klines"
  parentGapID := 0
  maxJobs := 0
  realtimeLag := 0
  realtimeLagPauseAfter := 0

/-- The realtime job of the first bucket. -/
def gapJob (status : JobStatus) : Job :=
  { Job.planned 1 "binance" "kline" "all" 1 "BTCUSDT" "1m" 100 3 (.obj []) minute with
    status := status }

def gapDB (status : JobStatus) : DB := ⟨⟨[gapJob status], List.nodup_singleton _⟩, []⟩

theorem planBackfillJobs_gap : planBackfillJobs 5 gapRequest =
    some (.ok [backfillJob gapRequest.withDefaults minute,
      backfillJob gapRequest.withDefaults (minute + gapRequest.step)]) := rfl

theorem buckets_gap : gapRequest.buckets = [minute, 2 * minute] := by decide +kernel

theorem insertJobs_gap (status : JobStatus) : ∃ n db', (gapDB status).insertJobs
    [backfillJob gapRequest.withDefaults minute,
      backfillJob gapRequest.withDefaults (minute + gapRequest.step)] 0 = .ok (n, db') := by
  have hok : ∀ status, ((gapDB status).insertJobs
      [backfillJob gapRequest.withDefaults minute,
        backfillJob gapRequest.withDefaults (minute + gapRequest.step)] 0).isOk := by
    intro status
    cases status <;> decide +kernel
  cases hins : (gapDB status).insertJobs _ 0 with
  | error e => have := hok status; rw [hins] at this; cases this
  | ok r => exact ⟨r.1, r.2, rfl⟩

theorem backfill_scheduled_iff_gap :
    ∃ jobs n db', planBackfillJobs 5 gapRequest = some (.ok jobs) ∧
      (gapDB .succeeded).insertJobs jobs 0 = .ok (n, db') ∧
      ∀ bucket ∈ gapRequest.buckets, ∃ row ∈ db'.jobs, gapRequest.Covers bucket row := by
  obtain ⟨n, db', hins⟩ := insertJobs_gap .succeeded
  have hdb : (gapDB .succeeded).KeysUnique := List.nodup_singleton _
  have hiff := backfill_scheduled_iff rfl planBackfillJobs_gap hdb hins
  refine ⟨_, n, db', planBackfillJobs_gap, hins, hiff.2 ?_⟩
  intro bucket _ row hrow hkey
  obtain rfl := List.mem_singleton.1 hrow
  exact ⟨hkey, rfl, rfl, rfl, rfl, rfl, by decide⟩

theorem deadLetter_blocks_backfill :
    ∃ jobs n db', gapRequest.paused = false ∧ planBackfillJobs 5 gapRequest = some (.ok jobs) ∧
      (gapDB .deadLetter).insertJobs jobs 0 = .ok (n, db') ∧ minute ∈ gapRequest.buckets ∧
      ¬∃ row ∈ db'.jobs, gapRequest.Covers minute row := by
  obtain ⟨n, db', hins⟩ := insertJobs_gap .deadLetter
  have hdb : (gapDB .deadLetter).KeysUnique := List.nodup_singleton _
  have hkey : (gapJob .deadLetter).idempotencyKey = gapRequest.key minute := rfl
  refine ⟨_, n, db', rfl, planBackfillJobs_gap, hins, ?_, ?_⟩
  · rw [buckets_gap]; exact List.mem_cons_self
  · rintro ⟨row, hrow, hcov⟩
    -- the row of the key is still the one in `dead_letter`
    have hold := (DB.jobByKey_insertJobs hins (gapRequest.key minute)).1 (gapJob .deadLetter)
      (hdb.mem_iff.1 ⟨List.mem_singleton_self _, hkey⟩)
    have hrow := (hdb.insertJobs hins).mem_iff.1 ⟨hrow, hcov.key⟩
    rw [hold] at hrow
    have hstatus := hcov.status
    rw [← Option.some.inj hrow] at hstatus
    exact absurd hstatus (by decide)

end Aggregator.Scheduler
