/-
  The worker (`internal/scheduler/worker.go`).

  `Worker.runOnce` claims a batch and processes it job by job.  Processing a job
  asks the circuit breaker and the rate limiter, executes the job, and writes
  the outcome to the store with one update.  What is outside the worker is its
  environment: an `Attempt` says, for one job, what the context, the limiter and
  the executor answer, what the clocks show, and whether the store update fails;
  a `Call` says it for one call of `RunOnce`.

  The state carries two records that the program does not keep: `log`, the
  outcome of every attempt, and `failedUpdates`, the jobs whose store update
  failed in the current call.

  * `DB.settle_spec`: what the store update for an outcome does to the jobs;
  * `Worker.runOnce_settles_iff`: when `RunOnce` settles every job whose update
    did not fail.
-/
import Aggregator.Go.Sha1
import Aggregator.Scheduler.Repository

namespace Aggregator.Scheduler

open Aggregator.Go Aggregator.Ratelimit

structure RetryPolicy where
  base : ℤ
  max : ℤ
  jitterMax : ℤ
deriving DecidableEq, Repr

/-- A worker; the fields that are interfaces are in the environment, up to
    whether they are nil. -/
structure Worker where
  hasLimiter : Bool
  hasBreaker : Bool
  batchSize : ℤ
  backoffFunc : Option (Job → ℤ)
  retry : RetryPolicy

/-! ## Backoff -/

def deterministicJitter (job : Job) (max : ℤ) : ℤ :=
  if max ≤ 0 then 0
  else
    let seed := "|".intercalate [job.idempotencyKey, toString job.id, toString job.retryCount]
    ((Sha1.sum seed.toUTF8.toList).a.toNat : ℤ) % max

def Worker.backoff (w : Worker) (job : Job) : ℤ :=
  match w.backoffFunc with
  | some f => f job
  | none =>
    let base := if w.retry.base ≤ 0 then 30 * second else w.retry.base
    let max := if w.retry.max ≤ 0 then 15 * minute else w.retry.max
    let jitterMax := if w.retry.jitterMax < 0 then 0 else w.retry.jitterMax
    let attempt := wrap64 (job.retryCount + 1)
    let attempt := if attempt < 1 then 1 else attempt
    let exponent := min (attempt - 1) 10
    let delay := float64ToInt64 (base * 2 ^ exponent.toNat)
    let delay := if delay > max then max else delay
    wrap64 (delay + deterministicJitter job jitterMax)

/-! ## Processing a job -/

/-- What the environment decides while one job is processed. -/
structure Attempt where
  /-- the error of the context, if it is done when the breaker is asked -/
  done : Option Error
  /-- the breaker's clock, when it is asked and when it is told of a failure -/
  allowNow : ℤ
  failNow : ℤ
  /-- what the limiter and the executor return -/
  waitErr : Option Error
  execErr : Option Error
  /-- the worker's clock, and the database's -/
  clock : ℤ
  now : ℤ
  /-- the store update fails -/
  storeErr : Option Error

/-- How far the processing of a job came. -/
inductive Outcome where
  | rejected (err : Error)
  | throttled (err : Error)
  | executed (err : Option Error)
deriving DecidableEq, Repr

namespace Outcome

/-- The attempt did not succeed. -/
def failed : Outcome → Bool
  | executed none => false
  | _ => true

/-- The attempt came to an execution. -/
def executes : Outcome → Bool
  | executed _ => true
  | _ => false

/-- The execution returned an error that is not recoverable. -/
def fatal : Outcome → Bool
  | executed (some err) => !(classifyExecutionError err).2
  | _ => false

end Outcome

structure State where
  db : DB
  breaker : CircuitBreaker
  log : List (ℤ × Outcome)
  failedUpdates : List ℤ

/-- `retryOrDeadLetter`, `nextRun` being the time of the next attempt. -/
def DB.retryOrDeadLetter (db : DB) (job : Job) (err : Error) (recoverable : Bool)
    (nextRun now : ℤ) : DB :=
  let deadLetter := !recoverable || job.retryCount + 1 ≥ job.maxRetry
  let failure : JobFailure :=
    ⟨(classifyExecutionError err).1, err.message, (runtimeMetadataFromJob job).endpointID⟩
  if deadLetter then db.markJobFailedDetailed job failure true now
  else db.retryJobLater job nextRun err.message now

/-- The store update for an outcome. -/
def DB.settle (db : DB) (job : Job) (nextRun now : ℤ) : Outcome → DB
  | .rejected err | .throttled err => db.retryOrDeadLetter job err true nextRun now
  | .executed (some err) =>
    db.retryOrDeadLetter job err (classifyExecutionError err).2 nextRun now
  | .executed none => db.markJobSucceeded job.id now

namespace Worker

/-- The part of `process` before the store update. -/
def attempt (w : Worker) (env : Attempt) (job : Job) (breaker : CircuitBreaker) :
    Outcome × CircuitBreaker :=
  let metadata := runtimeMetadataFromJob job
  let key : Key := ⟨job.exchange, metadata.endpointName, job.dataType⟩
  let (allowed, breaker) : Except Error CircuitState × CircuitBreaker :=
    if w.hasBreaker then breaker.allow env.done key env.allowNow else (.ok .closed, breaker)
  match allowed with
  | .error err => (.rejected err, breaker)
  | .ok _ =>
    match (if w.hasLimiter && metadata.requiresEndpoint then env.waitErr else none) with
    | some err => (.throttled err, breaker)
    | none =>
      match env.execErr with
      | some err =>
        let kind := (classifyExecutionError err).1
        (.executed (some err),
          if w.hasBreaker then breaker.recordFailure key kind env.failNow else breaker)
      | none =>
        (.executed none, if w.hasBreaker then breaker.recordSuccess key else breaker)

/-- `process`. -/
def process (w : Worker) (env : Attempt) (job : Job) (s : State) : Option Error × State :=
  let (outcome, breaker) := w.attempt env job s.breaker
  let s := { s with breaker := breaker, log := s.log ++ [(job.id, outcome)] }
  match env.storeErr with
  | some err => (some err, { s with failedUpdates := s.failedUpdates ++ [job.id] })
  | none => (none, { s with db := s.db.settle job (env.clock + w.backoff job) env.now outcome })

/-- The loop of `RunOnce`, after `processed` jobs. -/
def processAll (w : Worker) (env : ℕ → Attempt) :
    ℕ → List Job → State → ℕ × Option Error × State
  | processed, [], s => (processed, none, s)
  | processed, job :: jobs, s =>
    match w.process (env processed) job s with
    | (some err, s) => (processed, some err, s)
    | (none, s) => processAll w env (processed + 1) jobs s

/-- What the environment decides during one call of `RunOnce`. -/
structure Call where
  claimErr : Option Error
  claimNow : ℤ
  locked : List ℤ
  ret : Returning
  attempts : ℕ → Attempt

/-- The claim `RunOnce` starts with. -/
def claim (w : Worker) (c : Call) (db : DB) : Except Error (List Job × DB) :=
  match c.claimErr with
  | some err => .error err
  | none =>
    let batchSize := if w.batchSize ≤ 0 then 10 else w.batchSize
    (db.claimPendingJobs batchSize c.claimNow c.locked c.ret).mapError .new

/-- `RunOnce`. -/
def runOnce (w : Worker) (c : Call) (s : State) : ℕ × Option Error × State :=
  let s := { s with failedUpdates := [] }
  match w.claim c s.db with
  | .error err => (0, some err, s)
  | .ok (jobs, db) => w.processAll c.attempts 0 jobs { s with db := db }

/-- The batch of a call. -/
def batch (w : Worker) (c : Call) (db : DB) : List Job :=
  match w.claim c db with
  | .error _ => []
  | .ok (jobs, _) => jobs

end Worker

/-! ## The effect of one job -/

namespace DB
variable {db : DB} {job : Job} {nextRun now : ℤ}

/-- The statuses a store update leaves behind. -/
def Settled (db : DB) (id : ℤ) : Prop :=
  ∃ r, db.jobs.find id = some r ∧
    (r.status = .succeeded ∨ r.status = .pending ∨ r.status = .deadLetter)

/-- The job is tried again after the outcome. -/
def Retries (job : Job) (outcome : Outcome) : Prop :=
  outcome.failed ∧ ¬ outcome.fatal ∧ job.retryCount + 1 < job.maxRetry

instance (job : Job) (outcome : Outcome) : Decidable (Retries job outcome) :=
  inferInstanceAs (Decidable (_ ∧ _ ∧ _))

/-- What the update does to the row of the job. -/
def Settles (job : Job) (nextRun now : ℤ) (outcome : Outcome) (r r' : Job) : Prop :=
  (outcome = .executed none ∧ r' = r.succeed now) ∨
  (outcome.failed ∧ (outcome.fatal ∨ job.maxRetry ≤ job.retryCount + 1) ∧
    ∃ message kind, r' = r.fail .deadLetter message kind now) ∨
  (Retries job outcome ∧ ∃ message, r' = r.retry nextRun message now)

theorem retryOrDeadLetter_spec (db : DB) (job : Job) (err : Error) (nextRun now : ℤ)
    (outcome : Outcome) {recoverable : Bool} (ho : outcome.failed)
    (hr : recoverable = !outcome.fatal) :
    ∃ f : Job → Job, (∀ r, Settles job nextRun now outcome r (f r)) ∧
      ∀ id, (db.retryOrDeadLetter job err recoverable nextRun now).jobs.find id =
        if id = job.id then (db.jobs.find id).map f else db.jobs.find id := by
  subst hr
  unfold retryOrDeadLetter
  by_cases hd : outcome.fatal ∨ job.maxRetry ≤ job.retryCount + 1
  · dsimp only
    rw [if_pos (by simpa using hd)]
    exact ⟨_, fun r => .inr (.inl ⟨ho, hd, _, _, rfl⟩), fun id => find_markJobFailedDetailed⟩
  · obtain ⟨h₁, h₂⟩ := not_or.1 hd
    dsimp only
    rw [if_neg (by simpa using hd)]
    exact ⟨_, fun r => .inr (.inr ⟨⟨ho, h₁, not_le.1 h₂⟩, _, rfl⟩), fun id => find_retryJobLater⟩

/-- **The update settles the job**, and concerns no other: the job succeeded, or
    it is given up, or it is tried again later. -/
theorem settle_spec (db : DB) (job : Job) (nextRun now : ℤ) (outcome : Outcome) :
    ∃ f : Job → Job, (∀ r, Settles job nextRun now outcome r (f r)) ∧
      ∀ id, (db.settle job nextRun now outcome).jobs.find id =
        if id = job.id then (db.jobs.find id).map f else db.jobs.find id := by
  rcases outcome with err | err | _ | err
  · exact retryOrDeadLetter_spec db job err nextRun now (.rejected err) rfl rfl
  · exact retryOrDeadLetter_spec db job err nextRun now (.throttled err) rfl rfl
  · exact ⟨Job.succeed now, fun r => .inl ⟨rfl, rfl⟩, fun id => find_markJobSucceeded⟩
  · exact retryOrDeadLetter_spec db job err nextRun now (.executed (some err)) rfl
      (Bool.not_not _).symm

theorem find_settle_ne {outcome : Outcome} {id : ℤ} (h : id ≠ job.id) :
    (db.settle job nextRun now outcome).jobs.find id = db.jobs.find id := by
  obtain ⟨f, -, hf⟩ := settle_spec db job nextRun now outcome
  rw [hf, if_neg h]

theorem settle_cases (nextRun now : ℤ) (outcome : Outcome) {r : Job}
    (h : db.jobs.find job.id = some r) :
    ∃ r', (db.settle job nextRun now outcome).jobs.find job.id = some r' ∧
      Settles job nextRun now outcome r r' := by
  obtain ⟨f, hs, hf⟩ := settle_spec db job nextRun now outcome
  exact ⟨f r, by rw [hf, if_pos rfl, h]; rfl, hs r⟩

theorem settled_settle (nextRun now : ℤ) (outcome : Outcome) (h : (db.jobs.find job.id).isSome) :
    (db.settle job nextRun now outcome).Settled job.id := by
  obtain ⟨r, hr⟩ := Option.isSome_iff_exists.1 h
  obtain ⟨r', hr', hs⟩ := settle_cases nextRun now outcome hr
  refine ⟨r', hr', ?_⟩
  rcases hs with ⟨-, rfl⟩ | ⟨-, -, _, _, rfl⟩ | ⟨-, _, rfl⟩
  exacts [.inl rfl, .inr (.inr rfl), .inr (.inl rfl)]

end DB

/-! ## The batch loop -/

namespace Worker
variable {w : Worker} {env : ℕ → Attempt} {job : Job} {jobs : List Job} {s : State} {n : ℕ}

theorem process_of_err (w : Worker) (job : Job) (s : State) {a : Attempt} {err : Error}
    (h : a.storeErr = some err) :
    (w.process a job s).1 = some err ∧ (w.process a job s).2.db = s.db ∧
      (w.process a job s).2.failedUpdates = s.failedUpdates ++ [job.id] := by
  simp only [process, h, and_self]

theorem process_of_ok (w : Worker) (job : Job) (s : State) {a : Attempt} (h : a.storeErr = none) :
    (w.process a job s).1 = none ∧
      (w.process a job s).2.db = s.db.settle job (a.clock + w.backoff job) a.now
        (w.attempt a job s.breaker).1 ∧
      (w.process a job s).2.failedUpdates = s.failedUpdates := by
  simp only [process, h, and_self]

theorem processAll_of_err {err : Error} (h : (env n).storeErr = some err) :
    w.processAll env n (job :: jobs) s = (n, some err, (w.process (env n) job s).2) := by
  unfold processAll
  rw [show w.process (env n) job s = (some err, (w.process (env n) job s).2) from
    Prod.ext (process_of_err w job s h).1 rfl]

theorem processAll_of_ok (h : (env n).storeErr = none) :
    w.processAll env n (job :: jobs) s =
      w.processAll env (n + 1) jobs (w.process (env n) job s).2 := by
  rw [processAll]
  rw [show w.process (env n) job s = (none, (w.process (env n) job s).2) from
    Prod.ext (process_of_ok w job s h).1 rfl]

/-- The loop does not touch other rows. -/
theorem processAll_frame {id : ℤ} (h : id ∉ jobs.map Job.id) :
    (w.processAll env n jobs s).2.2.db.jobs.find id = s.db.jobs.find id := by
  induction jobs generalizing n s with
  | nil => rfl
  | cons job jobs ih =>
    rw [List.map_cons, List.mem_cons, not_or] at h
    obtain ⟨hne, h⟩ := h
    cases hs : (env n).storeErr with
    | some err => rw [processAll_of_err hs, (process_of_err w job s hs).2.1]
    | none =>
      rw [processAll_of_ok hs, ih h, (process_of_ok w job s hs).2.1,
        DB.find_settle_ne hne]

/-- The jobs whose store update did not fail are settled. -/
def Settles (jobs : List Job) (s : State) : Prop :=
  ∀ j ∈ jobs, j.id ∉ s.failedUpdates → s.db.Settled j.id

theorem settles_cons {job : Job} {s : State} (h : s.db.Settled job.id) :
    Settles (job :: jobs) s ↔ Settles jobs s := by
  constructor
  · intro H j hj
    exact H j (List.mem_cons_of_mem _ hj)
  · intro H j hj hf
    rcases List.mem_cons.1 hj with rfl | hj
    exacts [h, H j hj hf]

/-- A job whose update is made stays settled while the rest of the batch is
    processed. -/
theorem processAll_settled {job : Job} {r : Job} (hs : (env n).storeErr = none)
    (hr : s.db.jobs.find job.id = some r) (hnj : job.id ∉ jobs.map Job.id) :
    (w.processAll env (n + 1) jobs (w.process (env n) job s).2).2.2.db.Settled job.id := by
  have hdone : (w.process (env n) job s).2.db.Settled job.id := by
    rw [(process_of_ok w job s hs).2.1]
    exact DB.settled_settle _ _ _ (by simp [hr])
  unfold DB.Settled at hdone ⊢
  rwa [processAll_frame hnj]

/-- **The loop settles what it should** iff no update but the last one of the
    batch fails. -/
theorem processAll_settles_iff (hn : (jobs.map Job.id).Nodup)
    (hrun : ∀ j ∈ jobs, ∃ r, s.db.jobs.find j.id = some r ∧ r.status = .running)
    (hf : ∀ j ∈ jobs, j.id ∉ s.failedUpdates) :
    Settles jobs (w.processAll env n jobs s).2.2 ↔
      ∀ i, i + 1 < jobs.length → (env (n + i)).storeErr = none := by
  induction jobs generalizing n s with
  | nil => simp [Settles]
  | cons job jobs ih =>
    obtain ⟨hnj, hn⟩ := List.nodup_cons.1 hn
    cases hs : (env n).storeErr with
    | some err =>
      rw [processAll_of_err hs]
      obtain ⟨-, hdb, hfu⟩ := process_of_err w job s hs
      cases jobs with
      | nil => simp [Settles, hfu]
      | cons job' jobs =>
        -- the next job is left running, and its update has not failed
        refine iff_of_false (fun h => ?_) (fun h => by simpa [hs] using h 0 (by simp))
        obtain ⟨r, hr, hst⟩ := hrun job' (by simp)
        obtain ⟨r', hr', hst'⟩ := h job' (by simp) (by
          rw [hfu, List.mem_append, not_or]
          refine ⟨hf job' (by simp), fun h => hnj ?_⟩
          simp [← List.mem_singleton.1 h])
        rw [hdb, hr] at hr'
        obtain rfl := Option.some.inj hr'
        simp [hst] at hst'
    | none =>
      rw [processAll_of_ok hs]
      obtain ⟨-, hdb, hfu⟩ := process_of_ok w job s hs
      have hne : ∀ j ∈ jobs, j.id ≠ job.id := fun j hj he => hnj (he ▸ List.mem_map_of_mem hj)
      have ih := ih (n := n + 1) (s := (w.process (env n) job s).2) hn
        (fun j hj => by rw [hdb, DB.find_settle_ne (hne j hj)]; exact hrun j (by simp [hj]))
        (fun j hj => by rw [hfu]; exact hf j (by simp [hj]))
      obtain ⟨r, hr, -⟩ := hrun job (by simp)
      rw [settles_cons (processAll_settled hs hr hnj), ih]
      constructor
      · intro h i hi
        cases i with
        | zero => exact hs
        | succ i => rw [Nat.add_succ, ← Nat.succ_add]; exact h i (by simpa using hi)
      · intro h i hi
        have := h (i + 1) (by simpa using hi)
        rwa [Nat.add_succ, ← Nat.succ_add] at this

/-- A claimed batch is running. -/
theorem claim_spec {c : Call} {db db' : DB} (h : w.claim c db = .ok (jobs, db')) :
    ∃ limit, db.claimPendingJobs limit c.claimNow c.locked c.ret = .ok (jobs, db') := by
  unfold claim at h
  split at h
  · cases h
  · refine ⟨if w.batchSize ≤ 0 then 10 else w.batchSize, ?_⟩
    dsimp only at h
    revert h
    generalize db.claimPendingJobs _ c.claimNow c.locked c.ret = r
    cases r with
    | error e => intro h; cases h
    | ok a => intro h; exact congrArg _ (Except.ok.inj h)

theorem claim_running {c : Call} {db db' : DB} (h : w.claim c db = .ok (jobs, db')) :
    (jobs.map Job.id).Nodup ∧ ∀ j ∈ jobs, db'.jobs.find j.id = some j ∧ j.status = .running := by
  obtain ⟨limit, h⟩ := claim_spec h
  obtain ⟨hn, hj, hdb, -⟩ := DB.claimPendingJobs_spec h
  refine ⟨hn, fun j hm => ?_⟩
  obtain ⟨r, hr, -, -, rfl⟩ := hj j hm
  rw [hdb, if_pos (List.mem_map_of_mem hm), hr]
  exact ⟨rfl, rfl⟩

theorem runOnce_of_ok {c : Call} {db' : DB} (h : w.claim c s.db = .ok (jobs, db')) :
    w.runOnce c s = w.processAll c.attempts 0 jobs { s with failedUpdates := [], db := db' } := by
  simp only [runOnce, h]

theorem runOnce_of_error {c : Call} {err : Error} (h : w.claim c s.db = .error err) :
    w.runOnce c s = (0, some err, { s with failedUpdates := [] }) := by
  simp only [runOnce, h]

/-- **When `RunOnce` settles its batch.**  A failed store update ends the loop,
    and leaves the rest of the batch running. -/
theorem runOnce_settles_iff (w : Worker) (c : Call) (s : State) :
    Settles (w.batch c s.db) (w.runOnce c s).2.2 ↔
      ∀ i, i + 1 < (w.batch c s.db).length → (c.attempts i).storeErr = none := by
  unfold batch
  cases h : w.claim c s.db with
  | error err => simp [Settles]
  | ok r =>
    obtain ⟨jobs, db'⟩ := r
    obtain ⟨hn, hrun⟩ := claim_running h
    rw [runOnce_of_ok h]
    refine (processAll_settles_iff hn (fun j hj => ⟨j, (hrun j hj).1, (hrun j hj).2⟩)
      (fun _ _ => List.not_mem_nil)).trans ?_
    simp only [Nat.zero_add]

/-- Two jobs are claimed, and the update of the first one fails. -/
theorem runOnce_leaves_second_running :
    ∃ (w : Worker) (c : Call) (s : State), w.batch c s.db ≠ [] ∧
      ¬ Settles (w.batch c s.db) (w.runOnce c s).2.2 := by
  let w : Worker := ⟨false, false, 2, some fun _ => 30 * second, ⟨0, 0, 0⟩⟩
  let a : Attempt := ⟨none, 0, 0, none, none, 0, 0, some (.new "connection reset")⟩
  let c : Call := ⟨none, 0, [], .inOrder, fun _ => a⟩
  let s : State :=
    ⟨⟨⟨[.sample 1 "kline" 3 0, .sample 2 "kline" 3 0], by decide⟩, []⟩, .new ⟨5, 0, 1⟩, [], []⟩
  have hids : (w.batch c s.db).map Job.id = [1, 2] := by decide +kernel
  have hf : (w.runOnce c s).2.2.failedUpdates = [1] := by decide +kernel
  have hst : ((w.runOnce c s).2.2.db.jobs.find 2).map Job.status = some .running := by
    decide +kernel
  refine ⟨w, c, s, fun h => by simp [h] at hids, fun h => ?_⟩
  obtain ⟨j, hj, hid⟩ := List.mem_map.1 (show (2 : ℤ) ∈ (w.batch c s.db).map Job.id by simp [hids])
  obtain ⟨r, hr, hr'⟩ := h j hj (by simp [hf, hid])
  rw [hid] at hr
  simp only [hr, Option.map_some, Option.some.injEq] at hst
  simp [hst] at hr'

end Worker

end Aggregator.Scheduler
