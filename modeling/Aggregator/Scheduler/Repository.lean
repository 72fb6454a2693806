/-
  The statements of `internal/scheduler/repository.go` and `recovery.go` on the
  job queue.

  `now` is the database's `now()`.  Each function is one transaction, so what a
  failed call leaves behind is the database before it; that calls can fail is
  part of the environment of their callers.  `claimPendingJobs` is told which
  rows are locked by other transactions, which `SKIP LOCKED` passes over, and
  the order in which `RETURNING` lists the updated rows, which is not specified.

  What a statement does to a job is a function of the row (`Job.start`,
  `Job.succeed`, `Job.fail`, `Job.retry`, `Job.recover`), and the lemmas
  `find_...` say which rows it is applied to.
-/
import Aggregator.Lib.Table
import Aggregator.Scheduler.Models

namespace Aggregator.Scheduler

open Aggregator.Go Aggregator.Ratelimit

/-- A row of `failed_collection_jobs`. -/
structure FailedJob where
  jobID : ℤ
  idempotencyKey : String
  exchange : String
  dataType : String
  tier : String
  symbolID : ℤ
  sourceSymbol : String
  period : String
  retryCount : ℤ
  errorType : String
  errorMessage : String
  endpointID : ℤ
deriving DecidableEq, Repr

structure DB where
  jobs : Table Job.id
  failedJobs : List FailedJob

structure JobFailure where
  kind : FailureKind
  message : String
  endpointID : ℤ
deriving DecidableEq, Repr

/-! ## What the statements do to a row -/

namespace Job

/-- `ClaimPendingJobs`. -/
def start (now : ℤ) (j : Job) : Job :=
  { j with status := .running, startedAt := some now, updatedAt := now }

/-- `MarkJobSucceeded`. -/
def succeed (now : ℤ) (j : Job) : Job :=
  { j with
    status := .succeeded, finishedAt := some now, nextRetryAt := none, errorMessage := "",
    updatedAt := now }

/-- `MarkJobFailedDetailed`. -/
def fail (status : JobStatus) (message : String) (kind : FailureKind) (now : ℤ) (j : Job) : Job :=
  { j with
    status := status, finishedAt := some now, retryCount := j.retryCount + 1,
    errorMessage := message, lastErrorType := kind.string, updatedAt := now }

/-- `RetryJobLater`. -/
def retry (nextRun : ℤ) (message : String) (now : ℤ) (j : Job) : Job :=
  { j with
    status := .pending, scheduledAt := nextRun, nextRetryAt := some nextRun,
    finishedAt := some now, retryCount := j.retryCount + 1, errorMessage := message,
    lastErrorType := if j.lastErrorType = "" then "unknown" else j.lastErrorType,
    updatedAt := now }

/-- `RecoverInterrupted`. -/
def recover (metadata : Json) (now : ℤ) (j : Job) : Job :=
  { j with
    status := .pending, scheduledAt := min now j.scheduledAt, retryCount := j.retryCount + 1,
    errorMessage := "interrupted during restart recovery", lastErrorType := "network_error",
    nextRetryAt := some now, metadata := j.metadata.map (·.concat metadata), updatedAt := now }

@[simp] theorem start_id (now : ℤ) (j : Job) : (j.start now).id = j.id := rfl
@[simp] theorem succeed_id (now : ℤ) (j : Job) : (j.succeed now).id = j.id := rfl
@[simp] theorem fail_id (status : JobStatus) (message : String) (kind : FailureKind) (now : ℤ)
    (j : Job) : (j.fail status message kind now).id = j.id := rfl
@[simp] theorem retry_id (nextRun : ℤ) (message : String) (now : ℤ) (j : Job) :
    (j.retry nextRun message now).id = j.id := rfl
@[simp] theorem recover_id (metadata : Json) (now : ℤ) (j : Job) :
    (j.recover metadata now).id = j.id := rfl

end Job

/-! ## Claiming -/

/-- `ORDER BY priority ASC, scheduled_at ASC, id ASC`. -/
def claimOrder (i j : Job) : Bool :=
  i.priority < j.priority || (i.priority = j.priority &&
    (i.scheduledAt < j.scheduledAt || (i.scheduledAt = j.scheduledAt && i.id ≤ j.id)))

/-- The order in which `RETURNING` lists rows. -/
structure Returning where
  order : List Job → List Job
  perm : ∀ js, (order js).Perm js

/-- The order of the claim. -/
def Returning.inOrder : Returning := ⟨id, fun _ => .refl _⟩

/-- `WHERE status = 'pending' AND scheduled_at <= now()`, less the rows that are
    locked. -/
def claimable (now : ℤ) (locked : List ℤ) (j : Job) : Bool :=
  j.status = .pending && j.scheduledAt ≤ now && j.id ∉ locked

/-- The rows of `selected`. -/
def selectPending (jobs : List Job) (limit now : ℤ) (locked : List ℤ) : List Job :=
  ((jobs.filter (claimable now locked)).insertionSort (claimOrder · ·)).take limit.toNat

namespace DB

def claimPendingJobs (db : DB) (limit now : ℤ) (locked : List ℤ) (ret : Returning) :
    Except String (List Job × DB) :=
  if limit < 1 then .error "limit must be greater than 0"
  else
    let selected := selectPending db.jobs.rows limit now locked
    let jobs := db.jobs.update (fun j => selected.any (·.id = j.id)) (Job.start now) (Job.start_id now)
    .ok (ret.order (selected.map (Job.start now)), { db with jobs := jobs })

/-! ## Finishing -/

/-- `UPDATE ... WHERE id = $1`. -/
def updateJob (db : DB) (id : ℤ) (f : Job → Job) (hf : ∀ j, (f j).id = j.id) : DB :=
  { db with jobs := db.jobs.update (fun j => j.id = id) f hf }

def markJobSucceeded (db : DB) (jobID now : ℤ) : DB :=
  db.updateJob jobID (Job.succeed now) (Job.succeed_id now)

def defaultFailureKind (kind : FailureKind) : String :=
  if kind = .empty then "unknown" else kind.string

/-- The row inserted for a job that is given up. -/
def failedJob (job : Job) (failure : JobFailure) : FailedJob where
  jobID := job.id
  idempotencyKey := job.idempotencyKey
  exchange := job.exchange
  dataType := job.dataType
  tier := job.tier
  symbolID := job.symbolID
  sourceSymbol := job.sourceSymbol
  period := job.period
  retryCount := job.retryCount + 1
  errorType := defaultFailureKind failure.kind
  errorMessage := failure.message
  endpointID := failure.endpointID

/-- `INSERT INTO failed_collection_jobs ... ON CONFLICT DO NOTHING`; both
    `job_id` and `idempotency_key` are unique. -/
def insertFailedJob (db : DB) (row : FailedJob) : DB :=
  if db.failedJobs.any fun r => r.jobID = row.jobID || r.idempotencyKey = row.idempotencyKey then db
  else { db with failedJobs := db.failedJobs ++ [row] }

def markJobFailedDetailed (db : DB) (job : Job) (failure : JobFailure) (deadLetter : Bool)
    (now : ℤ) : DB :=
  let status := if deadLetter then .deadLetter else .failed
  let failure := { failure with
    message := if failure.message = "" then failure.kind.string else failure.message }
  let db := db.updateJob job.id (Job.fail status failure.message failure.kind now)
    (Job.fail_id status failure.message failure.kind now)
  if deadLetter then db.insertFailedJob (failedJob job failure) else db

def retryJobLater (db : DB) (job : Job) (nextRun : ℤ) (message : String) (now : ℤ) : DB :=
  db.updateJob job.id (Job.retry nextRun message now) (Job.retry_id nextRun message now)

/-! ## Recovery -/

def recoveryMetadata (reason : String) (cutoff : ℤ) : Json :=
  .obj [("recovery", .obj [("reason", .str reason), ("cutoff", .str (formatRFC3339 cutoff))])]

/-- The timeout `RecoverInterrupted` works with. -/
def recoveryTimeout (runningJobTimeout : ℤ) : ℤ :=
  if runningJobTimeout ≤ 0 then 15 * minute else runningJobTimeout

/-- `WHERE status = 'running' AND started_at < $1`. -/
def interrupted (cutoff : ℤ) (j : Job) : Bool :=
  j.status = .running && (j.startedAt.any (· < cutoff))

/-- `RecoverInterrupted` on the jobs; `clock` is the service's clock. -/
def recoverInterrupted (db : DB) (runningJobTimeout clock now : ℤ) : DB :=
  let cutoff := clock - recoveryTimeout runningJobTimeout
  let metadata := recoveryMetadata "running_job_timeout" cutoff
  { db with
    jobs := db.jobs.update (interrupted cutoff) (Job.recover metadata now)
      (Job.recover_id metadata now) }

/-! ## The statements as maps of rows -/

variable {db : DB} {id now : ℤ}

@[simp] theorem find_updateJob {f : Job → Job} {hf : ∀ j, (f j).id = j.id} {i : ℤ} :
    (db.updateJob i f hf).jobs.find id =
      if id = i then (db.jobs.find id).map f else db.jobs.find id := by
  unfold updateJob
  rw [Table.find_update]
  cases h : db.jobs.find id with
  | none => simp
  | some j =>
    have := Table.find_key h
    by_cases hi : id = i <;> simp [this, hi]

@[simp] theorem find_markJobSucceeded {i : ℤ} :
    (db.markJobSucceeded i now).jobs.find id =
      if id = i then (db.jobs.find id).map (Job.succeed now) else db.jobs.find id :=
  find_updateJob

@[simp] theorem find_retryJobLater {job : Job} {nextRun : ℤ} {message : String} :
    (db.retryJobLater job nextRun message now).jobs.find id =
      if id = job.id then (db.jobs.find id).map (Job.retry nextRun message now)
      else db.jobs.find id :=
  find_updateJob

@[simp] theorem insertFailedJob_jobs {row : FailedJob} : (db.insertFailedJob row).jobs = db.jobs := by
  unfold insertFailedJob; split <;> rfl

@[simp] theorem find_markJobFailedDetailed {job : Job} {failure : JobFailure} {deadLetter : Bool} :
    (db.markJobFailedDetailed job failure deadLetter now).jobs.find id =
      if id = job.id then (db.jobs.find id).map (Job.fail
        (if deadLetter then .deadLetter else .failed)
        (if failure.message = "" then failure.kind.string else failure.message) failure.kind now)
      else db.jobs.find id := by
  unfold markJobFailedDetailed
  cases deadLetter <;> simp

@[simp] theorem find_recoverInterrupted {timeout clock : ℤ} :
    (db.recoverInterrupted timeout clock now).jobs.find id =
      (db.jobs.find id).map fun j =>
        if interrupted (clock - recoveryTimeout timeout) j then
          j.recover (recoveryMetadata "running_job_timeout" (clock - recoveryTimeout timeout)) now
        else j := by
  unfold recoverInterrupted; simp

theorem mem_selectPending {jobs : List Job} {limit : ℤ} {locked : List ℤ} {j : Job}
    (h : j ∈ selectPending jobs limit now locked) :
    j ∈ jobs ∧ j.status = .pending ∧ j.scheduledAt ≤ now := by
  have := List.mem_of_mem_take h
  rw [List.mem_insertionSort, List.mem_filter] at this
  obtain ⟨hj, hc⟩ := this
  simp only [claimable, Bool.and_eq_true, decide_eq_true_eq] at hc
  exact ⟨hj, hc.1.1, hc.1.2⟩

/-- **What a claim does**: it starts rows that were pending, and returns them as
    started. -/
theorem claimPendingJobs_spec {limit : ℤ} {locked : List ℤ} {ret : Returning} {jobs : List Job}
    {db' : DB} (h : db.claimPendingJobs limit now locked ret = .ok (jobs, db')) :
    (jobs.map Job.id).Nodup ∧
    (∀ j ∈ jobs, ∃ r, db.jobs.find j.id = some r ∧ r.status = .pending ∧ r.scheduledAt ≤ now ∧
      j = r.start now) ∧
    (∀ id, db'.jobs.find id = if id ∈ jobs.map Job.id then (db.jobs.find id).map (Job.start now)
      else db.jobs.find id) ∧
    db'.failedJobs = db.failedJobs := by
  unfold claimPendingJobs at h
  split at h
  · cases h
  obtain ⟨hjobs, rfl⟩ := Prod.mk.inj (Except.ok.inj h)
  set sel := selectPending db.jobs.rows limit now locked with hsel
  have hperm : jobs.Perm (sel.map (Job.start now)) := hjobs ▸ ret.perm _
  have hids : (jobs.map Job.id).Perm (sel.map Job.id) := by
    simpa [List.map_map, Function.comp_def, Job.start] using hperm.map Job.id
  have hnodup : (sel.map Job.id).Nodup := by
    have hsub : (sel.map Job.id).Sublist _ := (List.take_sublist _ _).map Job.id
    refine hsub.nodup (((List.perm_insertionSort _ _).map Job.id).nodup_iff.2 ?_)
    exact db.jobs.nodup.sublist (List.filter_sublist.map _)
  refine ⟨hids.nodup_iff.2 hnodup, fun j hj => ?_, fun id => ?_, rfl⟩
  · obtain ⟨r, hr, rfl⟩ := List.mem_map.1 (hperm.mem_iff.1 hj)
    obtain ⟨hmem, hst, hsch⟩ := mem_selectPending hr
    exact ⟨r, Table.find_of_mem hmem, hst, hsch, rfl⟩
  · simp only [Table.find_update, hids.mem_iff]
    cases hf : db.jobs.find id with
    | none => simp
    | some r =>
      have hany : (sel.any fun x => decide (x.id = r.id)) = decide (id ∈ sel.map Job.id) := by
        rw [← Table.find_key hf, Bool.eq_iff_iff]; simp
      simp only [Option.map_some, hany, decide_eq_true_eq]
      split <;> rfl

end DB

end Aggregator.Scheduler
