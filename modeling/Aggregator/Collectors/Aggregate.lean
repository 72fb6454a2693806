/-
  The executor of aggregate jobs (`internal/collectors/aggregate/executor.go`),
  and the snapshot time it writes.

  The executor builds and upserts the aggregate snapshot of the job's symbol at
  the job's `scheduled_at`.  That column is the planned bucket at first, but
  `RetryJobLater` replaces it by the time of the next attempt, so the second
  attempt at a job writes a snapshot at another time (`Executor.retry_moves`).
  As long as retries keep the bucket, every execution of the job builds and writes
  at the planned bucket (`Executor.snapshot_at_bucket`).

  The values of a snapshot come from tables outside the queue, and are not
  modelled here; of a snapshot there are the key under which it is stored and
  the number of exchanges, which the executor looks at.
-/
import Aggregator.Scheduler.Queue

namespace Aggregator.Collectors.Aggregate

open Aggregator.Go Aggregator.Ratelimit Aggregator.Scheduler

structure Snapshot where
  symbolID : ℤ
  snapshotTime : ℤ
  exchangeCount : ℤ
deriving DecidableEq, Repr

namespace Snapshot

def key (s : Snapshot) : ℤ × ℤ := (s.symbolID, s.snapshotTime)

/-- `DO UPDATE SET ... = EXCLUDED...`, for the new row `s`. -/
def replacing (s old : Snapshot) : Snapshot := { old with exchangeCount := s.exchangeCount }

theorem replacing_key (s old : Snapshot) : (s.replacing old).key = old.key := rfl

end Snapshot

/-- What the executor works on: the table of aggregate snapshots, and the
    symbols and times for which analytics were upserted.  `builds` and `writes`,
    the jobs and times of the calls of `BuildLatest` and of the upserts, are not
    kept by the program. -/
structure Store where
  snapshots : Table Snapshot.key
  analytics : List (ℤ × ℤ)
  builds : List (ℤ × ℤ)
  writes : List (ℤ × ℤ)

/-- What the environment decides during one execution. -/
structure Env where
  now : ℤ
  /-- the result of the queries of `BuildLatest` -/
  exchanges : Except Error ℤ
  upsertErr : Option Error
  /-- whether the store has analytics, and how they fail -/
  hasAnalytics : Bool
  analyticsErr : Option Error
  upsertAnalyticsErr : Option Error

namespace Store

/-- `BuildLatest`. -/
def buildLatest (env : Env) (symbolID snapshotTime : ℤ) : Except Error Snapshot :=
  let snapshotTime := if isZero snapshotTime then env.now else snapshotTime
  env.exchanges.map fun n => ⟨symbolID, snapshotTime, n⟩

/-- `Upsert`. -/
def upsert (s : Store) (snapshot : Snapshot) : Store :=
  { s with snapshots := s.snapshots.upsert snapshot snapshot.replacing snapshot.replacing_key }

/-- The call of `BuildLatest` for a job, on record. -/
def built (s : Store) (jobID snapshotTime : ℤ) : Store :=
  { s with builds := s.builds ++ [(jobID, snapshotTime)] }

/-- An upsert for a job, on record. -/
def wrote (s : Store) (jobID snapshotTime : ℤ) : Store :=
  { s with writes := s.writes ++ [(jobID, snapshotTime)] }

end Store

namespace Executor

/-- The time of the snapshot. -/
def snapshotTime (job : Job) (now : ℤ) : ℤ := if isZero job.scheduledAt then now else job.scheduledAt

def serverError (err : Error) : Error := newExecutionError .serverError true (some err)

/-- The analytics part of `Execute`, after the snapshot has been upserted. -/
def executeAnalytics (job : Job) (env : Env) (s : Store) : Option Error × Store :=
  if env.hasAnalytics then
    match env.analyticsErr with
    | some err => (some (serverError err), s)
    | none =>
      -- an upsert that fails has written the rows before the failing one
      let time := snapshotTime job env.now
      (env.upsertAnalyticsErr.map serverError,
        { s.wrote job.id time with analytics := s.analytics ++ [(job.symbolID, time)] })
  else (none, s)

/-- `Execute`. -/
def execute (job : Job) (env : Env) (s : Store) : Option Error × Store :=
  if job.symbolID ≤ 0 then
    (some (newExecutionError .invalidResponse false (some (.new "missing symbol_id"))), s)
  else
    let time := snapshotTime job env.now
    let s := s.built job.id time
    match Store.buildLatest env job.symbolID time with
    | .error err => (some (serverError err), s)
    | .ok snapshot =>
      if snapshot.exchangeCount = 0 then
        (some (serverError (.new
          s!"no exchange snapshots available for symbol_id {job.symbolID}")), s)
      else
        match env.upsertErr with
        | some err => (some (serverError err), s)
        | none =>
          executeAnalytics job env ((s.upsert snapshot).wrote job.id snapshot.snapshotTime)

/-! ## One execution -/

/-- Every call and every row written for a job is at the time `b`. -/
def OnlyAt (s : Store) (jobID b : ℤ) : Prop :=
  ∀ e ∈ s.builds ++ s.writes, e.1 = jobID → e.2 = b

theorem onlyAt_append {s s' : Store} {jobID b i time : ℤ} (h : OnlyAt s jobID b)
    (hs : s'.builds = s.builds ∧ s'.writes = s.writes ++ [(i, time)] ∨
      s'.builds = s.builds ++ [(i, time)] ∧ s'.writes = s.writes)
    (ht : i = jobID → time = b) : OnlyAt s' jobID b := by
  intro e he hi
  have : e ∈ s.builds ++ s.writes ∨ e = (i, time) := by
    rcases hs with ⟨h₁, h₂⟩ | ⟨h₁, h₂⟩ <;> rw [h₁, h₂] at he <;> simp at he ⊢ <;> tauto
  rcases this with he | rfl
  exacts [h e he hi, ht hi]

theorem buildLatest_snapshotTime {env : Env} {symbolID time : ℤ} {snapshot : Snapshot}
    (ht : time ≠ 0) (h : Store.buildLatest env symbolID time = .ok snapshot) :
    snapshot.snapshotTime = time := by
  unfold Store.buildLatest at h
  cases he : env.exchanges with
  | error err => rw [he] at h; cases h
  | ok n =>
    rw [he] at h
    obtain rfl := Except.ok.inj h
    simp [isZero, ht]

/-- **An execution works at the job's `scheduled_at`.** -/
theorem execute_onlyAt {job : Job} {env : Env} {s : Store} {jobID b : ℤ} (h : OnlyAt s jobID b)
    (hb : b ≠ 0) (hj : job.id = jobID → job.scheduledAt = b) :
    OnlyAt (execute job env s).2 jobID b := by
  have htime : job.id = jobID → snapshotTime job env.now = b := by
    intro hi; simp [snapshotTime, isZero, hj hi, hb]
  unfold execute
  split
  · exact h
  have hbuilt : OnlyAt (s.built job.id (snapshotTime job env.now)) jobID b :=
    onlyAt_append h (.inr ⟨rfl, rfl⟩) htime
  dsimp only
  split
  · exact hbuilt
  · rename_i snapshot hs
    split
    · exact hbuilt
    split
    · exact hbuilt
    · have hwrote : OnlyAt (((s.built job.id (snapshotTime job env.now)).upsert snapshot).wrote
          job.id snapshot.snapshotTime) jobID b := by
        refine onlyAt_append hbuilt (.inl ⟨rfl, rfl⟩) fun hi => ?_
        rw [buildLatest_snapshotTime (htime hi ▸ hb) hs, htime hi]
      unfold executeAnalytics
      split
      · split
        · exact hwrote
        · exact onlyAt_append hwrote (.inl ⟨rfl, rfl⟩) htime
      · exact hwrote

/-- An execution without error leaves a snapshot at the job's `scheduled_at`. -/
theorem execute_snapshot {job : Job} {env : Env} {s : Store} (hz : job.scheduledAt ≠ 0)
    (h : (execute job env s).1 = none) :
    ((execute job env s).2.snapshots.find (job.symbolID, job.scheduledAt)).isSome := by
  have htime : snapshotTime job env.now = job.scheduledAt := by simp [snapshotTime, isZero, hz]
  have han : ∀ s, (executeAnalytics job env s).2.snapshots = s.snapshots := by
    intro s; unfold executeAnalytics; split
    · split <;> rfl
    · rfl
  unfold execute at h ⊢
  split at h
  · cases h
  rename_i hsym
  rw [if_neg hsym]
  dsimp only at h ⊢
  rw [htime] at h ⊢
  cases hbuild : Store.buildLatest env job.symbolID job.scheduledAt with
  | error err => simp [hbuild] at h
  | ok snapshot =>
    simp only [hbuild] at h ⊢
    split at h
    · cases h
    rename_i hcount
    rw [if_neg hcount]
    cases hup : env.upsertErr with
    | some err => simp [hup] at h
    | none =>
      have hkey : snapshot.key = (job.symbolID, job.scheduledAt) := by
        refine Prod.ext ?_ (buildLatest_snapshotTime hz hbuild)
        unfold Store.buildLatest at hbuild
        cases he : env.exchanges with
        | error err => rw [he] at hbuild; cases hbuild
        | ok n => rw [he] at hbuild; obtain rfl := Except.ok.inj hbuild; rfl
      simp only [han, Store.wrote, Store.upsert]
      rw [Table.find_upsert, if_pos hkey]
      rfl

/-! ## Runs of the queue -/

section
variable (jobID b symbolID : ℤ)

/-- The step does not move the job away from `b`: a retry is at `b`, and a
    recovery is not before it. -/
def KeepsBucket (s : System Store) : Label Env → Prop
  | .reject claim id err nextRun _ => ∀ t ∈ s.tasks, t.key = (claim, id) → id = jobID →
      DB.Retries t.job (.rejected err) → nextRun = b
  | .finish claim id nextRun _ => ∀ t ∈ s.tasks, t.key = (claim, id) → id = jobID →
      ∀ err ∈ t.outcome, DB.Retries t.job (.executed err) → nextRun = b
  | .recover timeout clock now => ∀ r ∈ s.db.jobs, r.id = jobID →
      DB.interrupted (clock - DB.recoveryTimeout timeout) r → b ≤ now
  | _ => True

/-- The invariant: the job is scheduled at `b`, also in the memory of workers,
    and has been executed at `b` only. -/
structure AtBucket (s : System Store) : Prop where
  row : ∀ r, s.db.jobs.find jobID = some r → r.scheduledAt = b ∧ r.symbolID = symbolID
  tasks : ∀ t ∈ s.tasks, t.job.id = jobID → t.job.scheduledAt = b ∧ t.job.symbolID = symbolID
  store : OnlyAt s.store jobID b

variable {jobID b symbolID} {s t : System Store}

theorem AtBucket.closed (h : AtBucket jobID b symbolID s) {τ : Task} {nextRun now : ℤ} {o : Outcome}
    (hk : τ.job.id = jobID → DB.Retries τ.job o → nextRun = b) :
    AtBucket jobID b symbolID (s.closed τ nextRun now o) where
  row r hr := by
    obtain ⟨f, hs, hf⟩ := DB.settle_spec s.db τ.job nextRun now o
    replace hr : (s.db.settle τ.job nextRun now o).jobs.find jobID = some r := hr
    rw [hf] at hr
    split at hr
    · rename_i hid
      obtain ⟨r₀, hr₀, rfl⟩ := Option.map_eq_some_iff.1 hr
      rcases hs r₀ with ⟨-, he⟩ | ⟨-, -, _, _, he⟩ | ⟨hre, _, he⟩ <;> rw [he]
      exacts [h.row r₀ hr₀, h.row r₀ hr₀, ⟨hk hid.symm hre, (h.row r₀ hr₀).2⟩]
    · exact h.row r hr
  tasks u hu := h.tasks u (Table.mem_delete.1 hu).1
  store := h.store

theorem AtBucket.step {l : Label Env} (hb : b ≠ 0) (h : AtBucket jobID b symbolID s)
    (hk : KeepsBucket jobID b s l) (hs : System.Steps execute s l t) :
    AtBucket jobID b symbolID t := by
  cases hs with
  | claim hc =>
    obtain ⟨-, hj, hdb, -⟩ := DB.claimPendingJobs_spec hc
    refine ⟨fun r hr => ?_, fun u hu hid => ?_, h.store⟩
    · simp only [System.claimed, hdb] at hr
      split at hr
      · obtain ⟨r₀, hr₀, rfl⟩ := Option.map_eq_some_iff.1 hr
        exact h.row r₀ hr₀
      · exact h.row r hr
    · rcases Table.mem_insertAll hu with hu | hu
      · exact h.tasks u hu hid
      · obtain ⟨j, hjm, rfl⟩ := List.mem_map.1 hu
        obtain ⟨r, hr, -, -, rfl⟩ := hj j hjm
        exact h.row r (by simpa [← hid] using hr)
  | @execute τ env hm ho =>
    refine ⟨h.row, fun u hu hid => ?_, execute_onlyAt h.store hb fun hid => (h.tasks τ hm hid).1⟩
    replace hu : u ∈ s.tasks.update _ _ (Task.executed_key _) := hu
    obtain ⟨u', hu', rfl⟩ := Table.mem_update.1 hu
    revert hid
    split <;> exact h.tasks u' hu'
  | @reject τ err nextRun now hm ho => exact h.closed fun hid hre => hk τ hm rfl hid hre
  | @finish τ err nextRun now hm ho => exact h.closed fun hid hre => hk τ hm rfl hid err ho hre
  | crash hm => exact ⟨h.row, fun u hu => h.tasks u (Table.mem_delete.1 hu).1, h.store⟩
  | recover =>
    refine ⟨fun r hr => ?_, h.tasks, h.store⟩
    simp only [System.recovered, DB.find_recoverInterrupted] at hr
    obtain ⟨r₀, hr₀, rfl⟩ := Option.map_eq_some_iff.1 hr
    obtain ⟨hsch, hsym⟩ := h.row r₀ hr₀
    split
    · rename_i hi
      obtain ⟨hmem, hid⟩ := Table.find_eq_some.1 hr₀
      have := hk r₀ hmem hid hi
      exact ⟨by simp only [Job.recover]; omega, hsym⟩
    · exact ⟨hsch, hsym⟩

end

/-- **Every execution of a planned job is at its bucket**, in every run whose
    steps keep the bucket. -/
theorem snapshot_at_bucket {s t : System Store} {ls : List (Label Env)} {id symbolID : ℤ}
    {exchange tier sourceSymbol period : String} {priority maxRetry plannedAt interval : ℤ}
    {metadata : Json} (hs : s.Idle) (hst : ∀ e ∈ s.store.builds ++ s.store.writes, e.1 ≠ id)
    (hjob : s.db.jobs.find id = some (.planned id exchange "aggregated_snapshot" tier symbolID
      sourceSymbol period priority maxRetry metadata (scheduledBucket plannedAt interval)))
    (hb : scheduledBucket plannedAt interval ≠ 0)
    (h : Run (Restrict (fun s l t => s.step execute l = some t)
      (KeepsBucket id (scheduledBucket plannedAt interval))) s ls t) :
    (∀ e ∈ t.store.builds ++ t.store.writes, e.1 = id →
      e.2 = scheduledBucket plannedAt interval) ∧
    ∀ τ ∈ t.tasks, τ.job.id = id → ∀ env, (execute τ.job env t.store).1 = none →
      ((execute τ.job env t.store).2.snapshots.find
        (symbolID, scheduledBucket plannedAt interval)).isSome := by
  have h₀ : AtBucket id (scheduledBucket plannedAt interval) symbolID s := by
    refine ⟨fun r hr => ?_, fun u hu => ?_, fun e he hi => absurd hi (hst e he)⟩
    · obtain rfl := Option.some.inj (hjob.symm.trans hr); exact ⟨rfl, rfl⟩
    · rw [← Table.mem_rows, hs] at hu; cases hu
  have ht := h.inv (fun _ _ _ hi hl => hi.step hb hl.1 (System.steps_of_step hl.2)) h₀
  refine ⟨ht.store, fun τ hm hid env hok => ?_⟩
  obtain ⟨hsch, hsym⟩ := ht.tasks τ hm hid
  have := execute_snapshot (hsch.trans_ne hb) hok
  rwa [hsch, hsym] at this

/-! ## Two runs -/

instance (jobID b : ℤ) (s : System Store) : (l : Label Env) → Decidable (KeepsBucket jobID b s l)
  | .reject claim id err nextRun _ => inferInstanceAs (Decidable (∀ t ∈ s.tasks,
      t.key = (claim, id) → id = jobID → DB.Retries t.job (.rejected err) → nextRun = b))
  | .finish claim id nextRun _ => inferInstanceAs (Decidable (∀ t ∈ s.tasks,
      t.key = (claim, id) → id = jobID → ∀ err ∈ t.outcome,
        DB.Retries t.job (.executed err) → nextRun = b))
  | .recover timeout clock now => inferInstanceAs (Decidable (∀ r ∈ s.db.jobs, r.id = jobID →
      DB.interrupted (clock - DB.recoveryTimeout timeout) r → b ≤ now))
  | .claim .. | .execute .. | .crash .. => isTrue trivial

/-- A planned aggregate job, and no worker. -/
def oneJob : System Store where
  db := ⟨⟨[.planned 1 "aggregate" "aggregated_snapshot" "all" 1 "BTCUSDT" "" 100 3 (.obj [])
    (scheduledBucket (hour + 5 * minute) 3600)], List.nodup_singleton _⟩, []⟩
  tasks := .empty
  nextClaim := 0
  lastClaim := fun _ => none
  log := []
  store := ⟨.empty, [], [], []⟩

/-- An execution that finds `n` exchanges, at the time `now`. -/
def found (n now : ℤ) : Env := ⟨now, .ok n, none, false, none, none⟩

theorem snapshot_at_bucket_oneJob :
    ∃ t : System Store, t.store.writes = [(1, hour)] ∧
      (∀ e ∈ t.store.builds ++ t.store.writes, e.1 = 1 →
        e.2 = scheduledBucket (hour + 5 * minute) 3600) := by
  obtain ⟨t, ht, hw⟩ := Option.map_eq_some_iff.1 (show
    (List.foldlM (fun (s : System Store) l =>
      if KeepsBucket 1 (scheduledBucket (hour + 5 * minute) 3600) s l then s.step execute l else none)
      oneJob [.claim 0 10 hour [] .inOrder, .execute 0 1 (found 3 hour), .crash 0 1,
        .recover 0 (2 * hour) (2 * hour)]).map (·.store.writes) = some [(1, hour)] by
    decide +kernel)
  have hrun := Run.of_foldlM_restrict ht
  exact ⟨t, hw, (snapshot_at_bucket (show oneJob.Idle from rfl) (by decide) rfl (by decide) hrun).1⟩

/-- The first execution finds no exchange, and the job is retried half a minute
    later: the second one writes a snapshot at the later time. -/
theorem retry_moves :
    ∃ (ls : List (Label Env)) (t : System Store),
      Run (fun s l t => s.step execute l = some t) oneJob ls t ∧
      ∃ e ∈ t.store.writes, e.1 = 1 ∧ e.2 ≠ scheduledBucket (hour + 5 * minute) 3600 := by
  let ls : List (Label Env) :=
    [.claim 0 10 hour [] .inOrder, .execute 0 1 (found 0 hour), .finish 0 1 (hour + 30 * second) hour,
      .claim 0 10 (hour + minute) [] .inOrder, .execute 1 1 (found 3 (hour + minute))]
  obtain ⟨t, ht, hw⟩ := Option.map_eq_some_iff.1 (show
    (ls.foldlM (fun (s : System Store) l => s.step execute l) oneJob).map (·.store.writes) =
      some [(1, hour + 30 * second)] by decide +kernel)
  exact ⟨ls, t, Run.of_foldlM ht, _, by rw [hw]; exact List.mem_singleton_self _, rfl, by decide⟩

end Executor

end Aggregator.Collectors.Aggregate
