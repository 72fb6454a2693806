/-
  Inserting planned jobs (`internal/scheduler/repository.go`: `InsertJobs`).

  The call is one transaction of `INSERT ... ON CONFLICT (idempotency_key) DO
  NOTHING` statements: it inserts, for every key the table does not hold, the
  first job that has it, or it fails on a `CHECK` constraint and inserts nothing.

  * `jobByKey_insertJobs`: what the table holds for a key after the call;
  * `insertJobs_of_held`: a call whose keys are all held changes nothing.
-/
import Aggregator.Lib.Checks
import Aggregator.Scheduler.Repository

namespace Aggregator.Scheduler

open Aggregator.Go

/-- A job to insert, with the columns that only a new job carries. -/
structure NewJob extends Job where
  jobMode : String
  parentGapID : ℤ
  backfillCheckpoint : Option Json

/-- The row an `INSERT` makes.  The mode, the gap and the checkpoint are written
    to columns that no statement of the queue reads. -/
def Job.inserted (id now : ℤ) (j : Job) : Job :=
  { j with
    id := id
    status := .pending
    startedAt := none
    finishedAt := none
    errorMessage := ""
    metadata := some (j.metadata.getD (.obj []))
    updatedAt := now
    nextRetryAt := none
    lastErrorType := "" }

/-- The `CHECK` constraints of `derivative_collection_jobs`. -/
def jobConstraints (j : Job) : Bool :=
  j.exchange = toLower j.exchange && 0 ≤ j.retryCount && 0 ≤ j.maxRetry

/-- The row with an idempotency key. -/
def jobByKey (jobs : Table Job.id) (k : String) : Option Job :=
  jobs.rows.find? (·.idempotencyKey = k)

/-- One statement; the constraints are checked before the conflict. -/
def insertJob (now : ℤ) (acc : ℤ × Table Job.id) (job : Job) :
    Except String (ℤ × Table Job.id) :=
  if !jobConstraints job then
    .error s!"insert job {job.idempotencyKey}: pq: new row violates check constraint"
  else if (jobByKey acc.2 job.idempotencyKey).isSome then .ok acc
  else .ok (acc.1 + 1, acc.2.insertNew (job.inserted acc.2.freshKey now))

namespace DB

/-- `InsertJobs`: the number of rows inserted. -/
def insertJobs (db : DB) (jobs : List NewJob) (now : ℤ) : Except String (ℤ × DB) :=
  (jobs.map NewJob.toJob).foldlM (insertJob now) (0, db.jobs) |>.map fun (n, t) =>
    (n, { db with jobs := t })

/-- The unique index on `idempotency_key`. -/
def KeysUnique (db : DB) : Prop := (db.jobs.rows.map Job.idempotencyKey).Nodup

instance (db : DB) : Decidable db.KeysUnique :=
  inferInstanceAs (Decidable (List.Nodup _))

end DB

/-! ## The rows by key -/

theorem jobByKey_eq_none {t : Table Job.id} {k : String} :
    jobByKey t k = none ↔ ∀ j ∈ t, j.idempotencyKey ≠ k := by
  rw [jobByKey, List.find?_eq_none]
  simp only [Table.mem_rows, decide_eq_true_eq, ne_eq]

theorem jobByKey_eq_some {t : Table Job.id} {k : String} {j : Job} (h : jobByKey t k = some j) :
    j ∈ t ∧ j.idempotencyKey = k :=
  ⟨List.mem_of_find?_eq_some h, by simpa using List.find?_some h⟩

/-- Under the unique index the row of a key is the one row that has it. -/
theorem DB.KeysUnique.mem_iff {db : DB} (h : db.KeysUnique) {k : String} {j : Job} :
    j ∈ db.jobs ∧ j.idempotencyKey = k ↔ jobByKey db.jobs k = some j := by
  refine ⟨?_, jobByKey_eq_some⟩
  rintro ⟨hj, rfl⟩
  cases hfind : jobByKey db.jobs j.idempotencyKey with
  | none => exact absurd rfl (jobByKey_eq_none.1 hfind j hj)
  | some j' =>
    obtain ⟨hj', hkey⟩ := jobByKey_eq_some hfind
    rw [List.inj_on_of_nodup_map h hj' hj hkey]

/-! ## One statement -/

section
variable {now : ℤ} {acc acc' : ℤ × Table Job.id} {job : Job}

/-- The rows after one statement that succeeds. -/
theorem insertJob_ok (h : insertJob now acc job = .ok acc') :
    (jobByKey acc.2 job.idempotencyKey ≠ none ∧ acc' = acc) ∨
      (jobByKey acc.2 job.idempotencyKey = none ∧
        acc'.2.rows = acc.2.rows ++ [job.inserted acc.2.freshKey now]) := by
  unfold insertJob at h
  split at h
  · cases h
  · split at h
    · rename_i hsome
      obtain rfl := Except.ok.inj h
      exact .inl ⟨Option.isSome_iff_ne_none.1 hsome, rfl⟩
    · rename_i hnone
      obtain rfl := Except.ok.inj h
      refine .inr ⟨by simpa using hnone, ?_⟩
      have hfresh : acc.2.find (job.inserted acc.2.freshKey now).id = none :=
        acc.2.find_freshKey
      simp only [Table.insertNew, hfresh, ↓reduceDIte]

/-- The key of an inserted job gets a row if it had none; no other key does. -/
theorem jobByKey_insertJob (h : insertJob now acc job = .ok acc') (k : String) :
    jobByKey acc'.2 k = (jobByKey acc.2 k).or
      (if job.idempotencyKey = k then some (job.inserted acc.2.freshKey now) else none) := by
  rcases insertJob_ok h with ⟨hheld, rfl⟩ | ⟨hnew, hrows⟩
  · by_cases hk : job.idempotencyKey = k
    · subst hk
      obtain ⟨j, hj⟩ := Option.ne_none_iff_exists'.1 hheld
      rw [hj, Option.some_or]
    · rw [if_neg hk, Option.or_none]
  · rw [jobByKey, hrows, List.find?_append]
    congr 1
    by_cases hk : job.idempotencyKey = k <;> simp [Job.inserted, hk]

theorem nodup_insertJob (h : insertJob now acc job = .ok acc')
    (hacc : (acc.2.rows.map Job.idempotencyKey).Nodup) :
    (acc'.2.rows.map Job.idempotencyKey).Nodup := by
  rcases insertJob_ok h with ⟨-, rfl⟩ | ⟨hnew, hrows⟩
  · exact hacc
  · rw [hrows, List.map_append, List.nodup_append_comm, List.map_singleton,
      List.singleton_append, List.nodup_cons]
    refine ⟨?_, hacc⟩
    rw [List.mem_map]
    rintro ⟨j, hj, hkey⟩
    exact jobByKey_eq_none.1 hnew j hj hkey

end

/-! ## The whole call -/

section
variable {now : ℤ} {acc acc' : ℤ × Table Job.id} {jobs : List Job}

/-- A row stays the row of its key. -/
theorem jobByKey_of_held (h : jobs.foldlM (insertJob now) acc = .ok acc') {k : String} {j : Job}
    (hj : jobByKey acc.2 k = some j) : jobByKey acc'.2 k = some j := by
  refine foldlM_induct (fun acc : ℤ × Table Job.id => jobByKey acc.2 k = some j)
    (fun job _ mid mid' hmid hone => ?_) hj h
  rw [jobByKey_insertJob hone, hmid, Option.some_or]

/-- A key that has no row gets the first job that has it. -/
theorem jobByKey_of_free (h : jobs.foldlM (insertJob now) acc = .ok acc') {k : String}
    (hk : jobByKey acc.2 k = none) :
    ∃ id, jobByKey acc'.2 k =
      (jobs.find? (·.idempotencyKey = k)).map (Job.inserted id now) := by
  induction jobs generalizing acc with
  | nil => obtain rfl := Except.ok.inj h; exact ⟨0, hk⟩
  | cons job jobs ih =>
    rw [List.foldlM_cons] at h
    obtain ⟨mid, hone, hrest⟩ := bind_eq_ok h
    have hmid := jobByKey_insertJob hone k
    rw [hk, Option.none_or] at hmid
    by_cases hjob : job.idempotencyKey = k
    · rw [if_pos hjob] at hmid
      refine ⟨acc.2.freshKey, ?_⟩
      rw [List.find?_cons_of_pos (by simpa using hjob), jobByKey_of_held hrest hmid]
      rfl
    · rw [if_neg hjob] at hmid
      obtain ⟨id, hid⟩ := ih hrest hmid
      exact ⟨id, by rw [List.find?_cons_of_neg (by simpa using hjob), hid]⟩

theorem foldlM_insertJob_of_held (h : jobs.foldlM (insertJob now) acc = .ok acc')
    (hheld : ∀ job ∈ jobs, jobByKey acc.2 job.idempotencyKey ≠ none) : acc' = acc := by
  induction jobs generalizing acc with
  | nil => exact (Except.ok.inj h).symm
  | cons job jobs ih =>
    rw [List.foldlM_cons] at h
    obtain ⟨mid, hone, hrest⟩ := bind_eq_ok h
    rcases insertJob_ok hone with ⟨-, rfl⟩ | ⟨hnew, -⟩
    · exact ih hrest fun j hj => hheld j (List.mem_cons_of_mem _ hj)
    · exact absurd hnew (hheld job List.mem_cons_self)

end

namespace DB
variable {db db' : DB} {jobs : List NewJob} {now n : ℤ}

theorem insertJobs_ok (h : db.insertJobs jobs now = .ok (n, db')) :
    (jobs.map NewJob.toJob).foldlM (insertJob now) (0, db.jobs) = .ok (n, db'.jobs) ∧
      db'.failedJobs = db.failedJobs := by
  unfold insertJobs at h
  cases hfold : (jobs.map NewJob.toJob).foldlM (insertJob now) (0, db.jobs) with
  | error e => rw [hfold] at h; cases h
  | ok acc =>
    rw [hfold] at h
    obtain ⟨rfl, rfl⟩ := Prod.mk.inj (Except.ok.inj h)
    exact ⟨rfl, rfl⟩

/-- **What the table holds for a key after the call**: the old row if there was
    one, and otherwise the first of the jobs with that key. -/
theorem jobByKey_insertJobs (h : db.insertJobs jobs now = .ok (n, db')) (k : String) :
    (∀ j, jobByKey db.jobs k = some j → jobByKey db'.jobs k = some j) ∧
      (jobByKey db.jobs k = none → ∃ id, jobByKey db'.jobs k =
        ((jobs.map NewJob.toJob).find? (·.idempotencyKey = k)).map (Job.inserted id now)) :=
  ⟨fun _ hj => jobByKey_of_held (insertJobs_ok h).1 hj,
    fun hk => jobByKey_of_free (insertJobs_ok h).1 hk⟩

/-- Every key of the call is held after it. -/
theorem held_insertJobs (h : db.insertJobs jobs now = .ok (n, db')) {job : NewJob}
    (hjob : job ∈ jobs) : jobByKey db'.jobs job.idempotencyKey ≠ none := by
  obtain ⟨hheld, hfree⟩ := jobByKey_insertJobs h job.idempotencyKey
  cases hold : jobByKey db.jobs job.idempotencyKey with
  | some j => rw [hheld j hold]; exact Option.some_ne_none j
  | none =>
    obtain ⟨id, hid⟩ := hfree hold
    rw [hid, Ne, Option.map_eq_none_iff, List.find?_eq_none]
    intro hnone
    exact hnone _ (List.mem_map_of_mem hjob) (by simp)

theorem KeysUnique.insertJobs (hdb : db.KeysUnique) (h : db.insertJobs jobs now = .ok (n, db')) :
    db'.KeysUnique := by
  obtain ⟨hfold, -⟩ := insertJobs_ok h
  refine foldlM_induct (a := (0, db.jobs)) (fun acc : ℤ × Table Job.id =>
    (acc.2.rows.map Job.idempotencyKey).Nodup) (fun job _ acc acc' hacc h => ?_) hdb hfold
  exact nodup_insertJob h hacc

/-- **A call whose keys are all held** inserts nothing. -/
theorem insertJobs_of_held (h : db.insertJobs jobs now = .ok (n, db'))
    (hheld : ∀ job ∈ jobs, jobByKey db.jobs job.idempotencyKey ≠ none) : n = 0 ∧ db' = db := by
  obtain ⟨hfold, hfailed⟩ := insertJobs_ok h
  have hsame := foldlM_insertJob_of_held hfold (by
    intro job hjob
    obtain ⟨new, hnew, rfl⟩ := List.mem_map.1 hjob
    exact hheld new hnew)
  obtain ⟨rfl, hjobs⟩ := Prod.mk.inj hsame
  cases db; cases db'
  simp only at hjobs hfailed
  rw [hjobs, hfailed]
  exact ⟨rfl, rfl⟩

end DB

end Aggregator.Scheduler
