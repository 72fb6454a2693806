/-
  The queue while it is being filled: workers, recovery, the planner and the
  backfill planner in any order.

  A `ServiceEvent` is a step of the queue or an insertion of jobs, and the results hold
  for every sequence of events, also for those in which recovery resets the job of
  a worker that is still at work.

  * `System.rows_kept`: no row is ever lost, and the columns that say what a job is
    never change; its retry counter never falls, and what a worker reads from its
    metadata stays the same, since recovery only adds a member of its own;
  * `System.deadLetters_recorded`: every dead-lettered job has exactly one row in
    `failed_collection_jobs`, which names the same job.
-/
import Aggregator.Scheduler.Drain
import Aggregator.Scheduler.Planner

namespace Aggregator.Scheduler

open Aggregator.Go

/-- What happens to the queue: a step of it, a run of the planner, or an insertion
    by someone else, such as the backfill planner. -/
inductive ServiceEvent (E : Type) where
  | queue (l : Label E)
  | plan (stores : Stores) (now dbNow : ℤ) (fault : Option String)
  | insert (jobs : List NewJob) (dbNow : ℤ)

namespace System
variable {σ E : Type}

def withDB (s : System σ) (db : DB) : System σ := { s with db := db }

/-- The events as steps. -/
inductive Serves (exec : Job → E → σ → Option Error × σ) (s : System σ) :
    ServiceEvent E → System σ → Prop
  | queue {l t} : s.step exec l = some t → Serves exec s (.queue l) t
  | plan {stores now dbNow fault} :
      Serves exec s (.plan stores now dbNow fault) (s.withDB (runAt stores now dbNow fault s.db).2)
  | insert {jobs dbNow n db} : s.db.insertJobs jobs dbNow = .ok (n, db) →
      Serves exec s (.insert jobs dbNow) (s.withDB db)

end System

/-! ## Rows -/

/-- The columns that say what a job is. -/
structure Identity where
  id : ℤ
  exchange : String
  dataType : String
  tier : String
  symbolID : ℤ
  sourceSymbol : String
  period : String
  idempotencyKey : String
  priority : ℤ
  maxRetry : ℤ
deriving DecidableEq, Repr

namespace Job

def identity (r : Job) : Identity :=
  ⟨r.id, r.exchange, r.dataType, r.tier, r.symbolID, r.sourceSymbol, r.period, r.idempotencyKey,
    r.priority, r.maxRetry⟩

/-- The metadata is a JSON object, as it is for every job the planners make. -/
def HasObject (r : Job) : Prop := ∃ fields, r.metadata = some (.obj fields)

/-- The ways a statement of the queue writes a row. -/
inductive Written (r : Job) : Job → Prop
  | same : Written r r
  | start (now) : Written r (r.start now)
  | succeed (now) : Written r (r.succeed now)
  | fail (message kind now) : Written r (r.fail .deadLetter message kind now)
  | retry (nextRun message now) : Written r (r.retry nextRun message now)
  | recover (reason cutoff now) : Written r (r.recover (DB.recoveryMetadata reason cutoff) now)

theorem Written.identity_eq {r r' : Job} (h : Written r r') : r'.identity = r.identity := by
  cases h <;> rfl

theorem Written.retryCount_le {r r' : Job} (h : Written r r') : r.retryCount ≤ r'.retryCount := by
  cases h with
  | same | start | succeed => exact le_rfl
  | fail | retry | recover => exact (lt_add_one r.retryCount).le

theorem setField_recovery (m : RuntimeMetadata) (v : Json) : m.setField "recovery" v = some m := by
  rw [RuntimeMetadata.setField]
  repeat rw [if_neg (by decide)]

/-- What recovery adds to the metadata is not among what a worker reads. -/
theorem unmarshal_concat_recovery (fields : List (String × Json)) (v : Json) (m : RuntimeMetadata) :
    ((Json.obj fields).concat (.obj [("recovery", v)])).unmarshal RuntimeMetadata.setField m =
      (Json.obj fields).unmarshal RuntimeMetadata.setField m := by
  simp only [Json.concat, Json.unmarshal, List.foldlM_append]
  rw [foldlM_filter]
  · cases fields.foldlM (fun s f => RuntimeMetadata.setField s f.1 f.2) m with
    | none => rfl
    | some m' => simp [setField_recovery]
  · intro f _ hf m'
    simp only [List.any_cons, List.any_nil, Bool.or_false, Bool.not_eq_false',
      decide_eq_true_eq] at hf
    rw [← hf]
    exact setField_recovery m' f.2

theorem Written.metadata {r r' : Job} (h : Written r r') (hobj : r.HasObject) :
    r'.HasObject ∧ runtimeMetadataFromJob r' = runtimeMetadataFromJob r := by
  obtain ⟨fields, hfields⟩ := hobj
  cases h with
  | same | start | succeed | fail | retry => exact ⟨⟨fields, hfields⟩, rfl⟩
  | recover reason cutoff now =>
    refine ⟨⟨_, by simp only [Job.recover, hfields, Option.map_some]; rfl⟩, ?_⟩
    simp only [runtimeMetadataFromJob, Job.recover, hfields, Option.map_some, DB.recoveryMetadata,
      unmarshal_concat_recovery]

/-- What is kept of a row, whatever is done to it. -/
structure Kept (r r' : Job) : Prop where
  identity : r'.identity = r.identity
  retryCount : r.retryCount ≤ r'.retryCount
  metadata : r.HasObject → r'.HasObject ∧ runtimeMetadataFromJob r' = runtimeMetadataFromJob r

theorem Kept.refl (r : Job) : Kept r r := ⟨rfl, le_rfl, fun h => ⟨h, rfl⟩⟩

theorem Kept.trans {r₁ r₂ r₃ : Job} (h : Kept r₁ r₂) (h' : Kept r₂ r₃) : Kept r₁ r₃ := by
  refine ⟨h'.identity.trans h.identity, h.retryCount.trans h'.retryCount, fun hobj => ?_⟩
  obtain ⟨hobj₂, heq⟩ := h.metadata hobj
  obtain ⟨hobj₃, heq'⟩ := h'.metadata hobj₂
  exact ⟨hobj₃, heq'.trans heq⟩

theorem Written.kept {r r' : Job} (h : Written r r') : Kept r r' :=
  ⟨h.identity_eq, h.retryCount_le, h.metadata⟩

end Job

namespace System
variable {σ E : Type} {exec : Job → E → σ → Option Error × σ} {s t : System σ}

theorem closed_written (s : System σ) (τ : Task) (nextRun now : ℤ) (outcome : Outcome) {id : ℤ}
    {r : Job} (hr : s.db.jobs.find id = some r) :
    ∃ r', (s.closed τ nextRun now outcome).db.jobs.find id = some r' ∧ r.Written r' := by
  obtain ⟨f, hs, hf⟩ := DB.settle_spec s.db τ.job nextRun now outcome
  change ∃ r', (s.db.settle τ.job nextRun now outcome).jobs.find id = some r' ∧ _
  rw [hf, hr]
  split
  · refine ⟨f r, rfl, ?_⟩
    rcases hs r with ⟨-, h⟩ | ⟨-, -, message, kind, h⟩ | ⟨-, message, h⟩
    · rw [h]; exact .succeed _
    · rw [h]; exact .fail _ _ _
    · rw [h]; exact .retry _ _ _
  · exact ⟨r, rfl, .same⟩

/-- **A step of the queue writes rows** and loses none. -/
theorem step_written {l : Label E} (hs : Steps exec s l t) {id : ℤ} {r : Job}
    (hr : s.db.jobs.find id = some r) : ∃ r', t.db.jobs.find id = some r' ∧ r.Written r' := by
  cases hs with
  | claim hc =>
    obtain ⟨-, -, hdb, -⟩ := DB.claimPendingJobs_spec hc
    simp only [claimed, hdb, hr]
    split
    · exact ⟨_, rfl, .start _⟩
    · exact ⟨r, rfl, .same⟩
  | execute hm hout => exact ⟨r, hr, .same⟩
  | reject hm hout => exact closed_written s _ _ _ _ hr
  | finish hm hout => exact closed_written s _ _ _ _ hr
  | crash hm => exact ⟨r, hr, .same⟩
  | recover =>
    simp only [recovered, DB.find_recoverInterrupted, hr, Option.map_some]
    refine ⟨_, rfl, ?_⟩
    split
    · exact .recover _ _ _
    · exact .same

/-- The rows of `t` are those of `s`, written. -/
def Rewritten (s t : System σ) : Prop :=
  ∀ id, (s.db.jobs.find id = none ∧ t.db.jobs.find id = none) ∨
    ∃ r r', s.db.jobs.find id = some r ∧ t.db.jobs.find id = some r' ∧ r.Written r'

theorem rewritten_of_step {l : Label E} (hs : Steps exec s l t) : Rewritten s t := by
  intro id
  cases hr : s.db.jobs.find id with
  | none => exact .inl ⟨rfl, step_none hs hr⟩
  | some r =>
    obtain ⟨r', hr', hw⟩ := step_written hs hr
    exact .inr ⟨r, r', rfl, hr', hw⟩

theorem Rewritten.of_mem (h : Rewritten s t) {r' : Job} (hr' : r' ∈ t.db.jobs) :
    ∃ r ∈ s.db.jobs, r.Written r' := by
  rcases h r'.id with ⟨-, hn⟩ | ⟨r, r'', hr, hr'', hw⟩
  · cases hn.symm.trans (Table.find_of_mem hr')
  · obtain rfl := Option.some.inj (hr''.symm.trans (Table.find_of_mem hr'))
    exact ⟨r, (Table.find_eq_some.1 hr).1, hw⟩

theorem Rewritten.mem (h : Rewritten s t) {r : Job} (hr : r ∈ s.db.jobs) :
    ∃ r' ∈ t.db.jobs, r.Written r' := by
  rcases h r.id with ⟨hn, -⟩ | ⟨r₀, r', hr₀, hr', hw⟩
  · cases hn.symm.trans (Table.find_of_mem hr)
  · obtain rfl := Option.some.inj (hr₀.symm.trans (Table.find_of_mem hr))
    exact ⟨r', (Table.find_eq_some.1 hr').1, hw⟩

end System

namespace DB
variable {db db' : DB}

theorem keysUnique_iff :
    db.KeysUnique ↔ ∀ r ∈ db.jobs, ∀ r' ∈ db.jobs, r.idempotencyKey = r'.idempotencyKey → r = r' :=
  ⟨fun h _ hr _ hr' hk => List.inj_on_of_nodup_map h hr hr' hk,
    fun h => (List.Nodup.of_map _ db.jobs.nodup).map_on h⟩

/-- An insertion adds pending rows, and touches nothing else. -/
theorem insertJobs_rows {jobs : List NewJob} {now n : ℤ}
    (h : db.insertJobs jobs now = .ok (n, db')) :
    (∀ r ∈ db.jobs, r ∈ db'.jobs) ∧ (∀ r ∈ db'.jobs, r ∈ db.jobs ∨ r.status = .pending) ∧
      db'.failedJobs = db.failedJobs := by
  obtain ⟨hfold, hfailed⟩ := insertJobs_ok h
  have hinv : (∀ r ∈ db.jobs, r ∈ db'.jobs) ∧
      ∀ r ∈ db'.jobs, r ∈ db.jobs ∨ r.status = .pending := by
    refine foldlM_induct (a := (0, db.jobs)) (fun acc : ℤ × Table Job.id =>
      (∀ r ∈ db.jobs, r ∈ acc.2) ∧ ∀ r ∈ acc.2, r ∈ db.jobs ∨ r.status = .pending)
      (fun job _ acc acc' hacc hone => ?_) ⟨fun _ hr => hr, fun _ hr => .inl hr⟩ hfold
    rcases insertJob_ok hone with ⟨-, rfl⟩ | ⟨-, hrows⟩
    · exact hacc
    · refine ⟨fun r hr => ?_, fun r hr => ?_⟩
      · rw [← Table.mem_rows, hrows]
        exact List.mem_append_left _ (hacc.1 r hr)
      · rw [← Table.mem_rows, hrows] at hr
        rcases List.mem_append.1 hr with hr | hr
        · exact hacc.2 r hr
        · rw [List.mem_singleton.1 hr]
          exact .inr rfl
  exact ⟨hinv.1, hinv.2, hfailed⟩

end DB

namespace System
variable {σ E : Type} {exec : Job → E → σ → Option Error × σ} {s t : System σ}

/-- What an event leaves of the rows. -/
theorem serves_kept {e : ServiceEvent E} (h : Serves exec s e t) {r : Job} (hr : r ∈ s.db.jobs) :
    ∃ r' ∈ t.db.jobs, r.Kept r' := by
  cases h with
  | queue hs =>
    obtain ⟨r', hr', hw⟩ := (rewritten_of_step (steps_of_step hs)).mem hr
    exact ⟨r', hr', hw.kept⟩
  | @plan stores now dbNow fault =>
    refine ⟨r, ?_, .refl r⟩
    rcases runAt_cases stores now dbNow fault s.db with ⟨-, heq⟩ | ⟨_, _, _, _, _, hins⟩
    · change r ∈ (runAt stores now dbNow fault s.db).2.jobs
      rw [heq]
      exact hr
    · exact (DB.insertJobs_rows hins).1 r hr
  | insert hins => exact ⟨r, (DB.insertJobs_rows hins).1 r hr, .refl r⟩

/-- What a run leaves of the rows. -/
theorem kept_of_run {es : List (ServiceEvent E)} (h : Run (Serves exec) s es t) :
    ∀ r ∈ s.db.jobs, ∃ r' ∈ t.db.jobs, r.Kept r' := by
  let R (s t : System σ) : Prop := ∀ r ∈ s.db.jobs, ∃ r' ∈ t.db.jobs, r.Kept r'
  refine Run.rel (I := fun _ => True) (R := R) (fun s r hr => ⟨r, hr, .refl r⟩) ?_
    (fun _ _ _ _ _ => trivial) (fun s e t _ he r hr => serves_kept he hr) h trivial
  intro s t u hst htu r hr
  obtain ⟨r', hr', hk⟩ := hst r hr
  obtain ⟨r'', hr'', hk'⟩ := htu r' hr'
  exact ⟨r'', hr'', hk.trans hk'⟩

/-- **Rows are kept.**  Whatever happens to the queue, every row stays, with the
    columns that say what the job is; its retry counter does not fall, and a worker
    reads the same from its metadata. -/
theorem rows_kept {es : List (ServiceEvent E)} (h : Run (Serves exec) s es t) :
    ∀ r ∈ s.db.jobs, ∃ r' ∈ t.db.jobs, r'.identity = r.identity ∧
      r.retryCount ≤ r'.retryCount ∧
      (r.HasObject → runtimeMetadataFromJob r' = runtimeMetadataFromJob r) := by
  intro r hr
  obtain ⟨r', hr', hk⟩ := kept_of_run h r hr
  exact ⟨r', hr', hk.identity, hk.retryCount, fun hobj => (hk.metadata hobj).2⟩

/-- An event, computed. -/
def serve (exec : Job → E → σ → Option Error × σ) (s : System σ) : ServiceEvent E → Option (System σ)
  | .queue l => s.step exec l
  | .plan stores now dbNow fault => some (s.withDB (runAt stores now dbNow fault s.db).2)
  | .insert jobs dbNow =>
    match s.db.insertJobs jobs dbNow with
    | .ok (_, db) => some (s.withDB db)
    | .error _ => none

theorem serves_of_serve {e : ServiceEvent E} (h : s.serve exec e = some t) : Serves exec s e t := by
  cases e with
  | queue l => exact .queue h
  | plan stores now dbNow fault => obtain rfl := Option.some.inj h; exact .plan
  | insert jobs dbNow =>
    simp only [serve] at h
    split at h
    · rename_i hins
      obtain rfl := Option.some.inj h
      exact .insert hins
    · cases h

theorem run_of_serve {es : List (ServiceEvent E)} (h : es.foldlM (fun s e => s.serve exec e) s = some t) :
    Run (Serves exec) s es t :=
  (Run.of_foldlM h).mono fun _ _ _ => serves_of_serve

/-- A worker dies with a job, which is recovered; meanwhile the planner runs. -/
theorem rows_kept_recovered :
    ∃ t : System Unit, Run (Serves plain) (oneJob 3)
        [.queue (.claim 0 10 0 [] .inOrder), .plan overlappingStores (65 * second) 0 none,
          .queue (.crash 0 1), .queue (.recover 0 (16 * minute) (16 * minute))] t ∧
      t.db.jobs.rows.map Job.retryCount = [1, 0] ∧
      ∃ r' ∈ t.db.jobs, r'.identity = (Job.sample 1 "kline" 3 0).identity ∧
        runtimeMetadataFromJob r' = runtimeMetadataFromJob (.sample 1 "kline" 3 0) := by
  obtain ⟨t, ht, hcounts⟩ := Option.map_eq_some_iff.1 (show (List.foldlM
    (fun (s : System Unit) e => s.serve plain e) (oneJob 3)
    [.queue (.claim 0 10 0 [] .inOrder), .plan overlappingStores (65 * second) 0 none,
      .queue (.crash 0 1), .queue (.recover 0 (16 * minute) (16 * minute))]).map
        (fun t => t.db.jobs.rows.map Job.retryCount) = some [1, 0] by decide +kernel)
  have hrun := run_of_serve ht
  obtain ⟨r', hr', hid, -, hmeta⟩ := rows_kept hrun (.sample 1 "kline" 3 0) List.mem_cons_self
  exact ⟨t, hrun, hcounts, r', hr', hid, hmeta ⟨[], rfl⟩⟩

/-! ## Dead letters -/

end System

/-- The row of `failed_collection_jobs` is about the job. -/
def FailedJob.Names (f : FailedJob) (r : Job) : Prop :=
  f.jobID = r.id ∧ f.idempotencyKey = r.idempotencyKey ∧ f.exchange = r.exchange ∧
    f.dataType = r.dataType ∧ f.tier = r.tier ∧ f.symbolID = r.symbolID ∧
    f.sourceSymbol = r.sourceSymbol ∧ f.period = r.period

theorem FailedJob.Names.of_identity {f : FailedJob} {r r' : Job} (h : f.Names r)
    (he : r'.identity = r.identity) : f.Names r' := by
  simp only [Job.identity, Identity.mk.injEq] at he
  obtain ⟨hid, hex, hdt, htier, hsym, hsrc, hper, hkey, -, -⟩ := he
  unfold Names at h ⊢
  rw [hid, hex, hdt, htier, hsym, hsrc, hper, hkey]
  exact h

namespace DB

theorem names_failedJob (job : Job) (failure : JobFailure) : (failedJob job failure).Names job :=
  ⟨rfl, rfl, rfl, rfl, rfl, rfl, rfl, rfl⟩

/-- What a store update does to the two tables together: a row becomes
    dead-lettered only if a failed job is inserted for it. -/
def Files (db : DB) (job : Job) (db' : DB) : Prop :=
  (db'.failedJobs = db.failedJobs ∧ ∀ r ∈ db'.jobs, r.status = .deadLetter → r ∈ db.jobs) ∨
    ∃ failure, db'.failedJobs = (db.insertFailedJob (failedJob job failure)).failedJobs ∧
      ∀ r ∈ db'.jobs, r.status = .deadLetter → r ∈ db.jobs ∨ r.id = job.id

/-- A row that was not there belongs to the job that is updated. -/
theorem mem_of_find_update {db db' : DB} {i : ℤ} {f : Job → Job}
    (h : ∀ id, db'.jobs.find id = if id = i then (db.jobs.find id).map f else db.jobs.find id)
    {r : Job} (hr : r ∈ db'.jobs) : r ∈ db.jobs ∨ r.id = i ∧ ∃ r₀, r = f r₀ := by
  have hfind := Table.find_of_mem hr
  rw [h] at hfind
  split at hfind
  · rename_i hid
    obtain ⟨r₀, -, rfl⟩ := Option.map_eq_some_iff.1 hfind
    exact .inr ⟨hid, r₀, rfl⟩
  · exact .inl (Table.find_eq_some.1 hfind).1

theorem failedJobs_insertFailedJob (db : DB) (row : FailedJob) :
    (db.insertFailedJob row).failedJobs =
      if db.failedJobs.any fun r => r.jobID = row.jobID || r.idempotencyKey = row.idempotencyKey then
        db.failedJobs
      else db.failedJobs ++ [row] := by
  unfold insertFailedJob
  split <;> rfl

theorem failedJobs_markJobFailedDetailed (db : DB) (job : Job) (failure : JobFailure) (now : ℤ) :
    ∃ failure', (db.markJobFailedDetailed job failure true now).failedJobs =
      (db.insertFailedJob (failedJob job failure')).failedJobs := by
  refine ⟨{ failure with
    message := if failure.message = "" then failure.kind.string else failure.message }, ?_⟩
  unfold markJobFailedDetailed
  dsimp only
  rw [if_pos rfl, failedJobs_insertFailedJob, failedJobs_insertFailedJob]
  rfl

theorem files_retryOrDeadLetter (db : DB) (job : Job) (err : Error) (recoverable : Bool)
    (nextRun now : ℤ) : db.Files job (db.retryOrDeadLetter job err recoverable nextRun now) := by
  unfold retryOrDeadLetter
  dsimp only
  split
  · obtain ⟨failure, hfailed⟩ := failedJobs_markJobFailedDetailed db job
      ⟨(classifyExecutionError err).1, err.message, (runtimeMetadataFromJob job).endpointID⟩ now
    refine .inr ⟨failure, hfailed, fun r hr _ => ?_⟩
    exact (mem_of_find_update (fun _ => find_markJobFailedDetailed) hr).imp_right And.left
  · refine .inl ⟨rfl, fun r hr hdead => ?_⟩
    rcases mem_of_find_update (fun _ => find_retryJobLater) hr with hmem | ⟨-, r₀, rfl⟩
    · exact hmem
    · cases hdead

theorem files_settle (db : DB) (job : Job) (nextRun now : ℤ) (outcome : Outcome) :
    db.Files job (db.settle job nextRun now outcome) := by
  rcases outcome with err | err | _ | err
  · exact files_retryOrDeadLetter db job err _ nextRun now
  · exact files_retryOrDeadLetter db job err _ nextRun now
  · refine .inl ⟨rfl, fun r hr hdead => ?_⟩
    rcases mem_of_find_update (fun _ => find_markJobSucceeded) hr with hmem | ⟨-, r₀, rfl⟩
    · exact hmem
    · cases hdead
  · exact files_retryOrDeadLetter db job err _ nextRun now

end DB

namespace System
variable {σ E : Type} {exec : Job → E → σ → Option Error × σ} {s t : System σ}

/-- The invariant. -/
structure Recorded (s : System σ) : Prop where
  keys : s.db.KeysUnique
  tasks : ∀ u ∈ s.tasks, ∃ r ∈ s.db.jobs, r.identity = u.job.identity
  rows : ∀ f ∈ s.db.failedJobs, ∃ r ∈ s.db.jobs, f.Names r
  once : (s.db.failedJobs.map FailedJob.jobID).Nodup
  dead : ∀ r ∈ s.db.jobs, r.status = .deadLetter → ∃ f ∈ s.db.failedJobs, f.jobID = r.id

theorem Rewritten.keysUnique (h : Rewritten s t) (hs : s.db.KeysUnique) : t.db.KeysUnique := by
  rw [DB.keysUnique_iff] at hs ⊢
  intro r₁ hr₁ r₂ hr₂ hk
  obtain ⟨q₁, hq₁, hw₁⟩ := h.of_mem hr₁
  obtain ⟨q₂, hq₂, hw₂⟩ := h.of_mem hr₂
  have hkeys : q₁.idempotencyKey = q₂.idempotencyKey :=
    (congrArg Identity.idempotencyKey hw₁.identity_eq).symm.trans
      (hk.trans (congrArg Identity.idempotencyKey hw₂.identity_eq))
  obtain rfl := hs q₁ hq₁ q₂ hq₂ hkeys
  refine Table.eq_of_key hr₁ hr₂ ?_
  exact (congrArg Identity.id hw₁.identity_eq).trans (congrArg Identity.id hw₂.identity_eq).symm

/-- Steps that write rows without dead-lettering any. -/
theorem Recorded.rewritten (h : s.Recorded) (hw : Rewritten s t)
    (htasks : ∀ u ∈ t.tasks, ∃ r ∈ s.db.jobs, r.identity = u.job.identity)
    (hfailed : t.db.failedJobs = s.db.failedJobs)
    (hdead : ∀ r ∈ t.db.jobs, r.status = .deadLetter → r ∈ s.db.jobs) : t.Recorded := by
  refine ⟨hw.keysUnique h.keys, fun u hu => ?_, fun f hf => ?_, hfailed ▸ h.once, fun r hr hd => ?_⟩
  · obtain ⟨r, hr, he⟩ := htasks u hu
    obtain ⟨r', hr', hrw⟩ := hw.mem hr
    exact ⟨r', hr', hrw.identity_eq.trans he⟩
  · rw [hfailed] at hf
    obtain ⟨r, hr, hn⟩ := h.rows f hf
    obtain ⟨r', hr', hrw⟩ := hw.mem hr
    exact ⟨r', hr', hn.of_identity hrw.identity_eq⟩
  · rw [hfailed]
    exact h.dead r (hdead r hr hd) hd

/-- The failed job is inserted, or there is one for the job already: two jobs do
    not have the same key. -/
theorem Recorded.filed (h : s.Recorded) {u : Task} (hu : u ∈ s.tasks) (failure : JobFailure) :
    ((s.db.insertFailedJob (DB.failedJob u.job failure)).failedJobs.map FailedJob.jobID).Nodup ∧
      (∃ f ∈ (s.db.insertFailedJob (DB.failedJob u.job failure)).failedJobs,
        f.jobID = u.job.id) ∧
      ∀ f ∈ (s.db.insertFailedJob (DB.failedJob u.job failure)).failedJobs,
        f ∈ s.db.failedJobs ∨ f = DB.failedJob u.job failure := by
  rw [DB.failedJobs_insertFailedJob]
  split
  · rename_i hany
    refine ⟨h.once, ?_, fun f hf => .inl hf⟩
    obtain ⟨f, hf, hconflict⟩ := List.any_eq_true.1 hany
    refine ⟨f, hf, ?_⟩
    simp only [Bool.or_eq_true, decide_eq_true_eq] at hconflict
    rcases hconflict with hid | hkey
    · exact hid
    · -- the failed job with that key is for the job with that key
      obtain ⟨r, hr, hnames⟩ := h.rows f hf
      obtain ⟨r', hr', he⟩ := h.tasks u hu
      have hsame : r = r' := DB.keysUnique_iff.1 h.keys r hr r' hr'
        (hnames.2.1.symm.trans (hkey.trans (congrArg Identity.idempotencyKey he).symm))
      rw [hnames.1, hsame]
      exact congrArg Identity.id he
  · rename_i hnone
    refine ⟨?_, ⟨_, List.mem_append_right _ (List.mem_singleton_self _), rfl⟩, fun f hf => ?_⟩
    · rw [List.map_append, List.nodup_append_comm, List.map_singleton, List.singleton_append,
        List.nodup_cons]
      refine ⟨fun hmem => hnone ?_, h.once⟩
      obtain ⟨f, hf, hid⟩ := List.mem_map.1 hmem
      exact List.any_eq_true.2 ⟨f, hf, by simp [hid]⟩
    · rcases List.mem_append.1 hf with hf | hf
      · exact .inl hf
      · exact .inr (List.mem_singleton.1 hf)

theorem Recorded.closed (h : s.Recorded) {u : Task} (hu : u ∈ s.tasks) (nextRun now : ℤ)
    (outcome : Outcome) (hw : Rewritten s (s.closed u nextRun now outcome)) :
    (s.closed u nextRun now outcome).Recorded := by
  have htasks : ∀ v ∈ (s.closed u nextRun now outcome).tasks,
      ∃ r ∈ s.db.jobs, r.identity = v.job.identity :=
    fun v hv => h.tasks v (Table.mem_delete.1 hv).1
  rcases DB.files_settle s.db u.job nextRun now outcome with ⟨hfailed, hdead⟩ |
    ⟨failure, hfailed, hdead⟩
  · exact h.rewritten hw htasks hfailed hdead
  · obtain ⟨honce, ⟨f₀, hf₀, hid₀⟩, hmem⟩ := h.filed hu failure
    have hfailed' : (s.closed u nextRun now outcome).db.failedJobs =
      (s.db.insertFailedJob (DB.failedJob u.job failure)).failedJobs := hfailed
    refine ⟨hw.keysUnique h.keys, fun v hv => ?_, fun f hf => ?_, hfailed' ▸ honce,
      fun r hr hd => ?_⟩
    · obtain ⟨r, hr, he⟩ := htasks v hv
      obtain ⟨r', hr', hrw⟩ := hw.mem hr
      exact ⟨r', hr', hrw.identity_eq.trans he⟩
    · rw [hfailed'] at hf
      obtain ⟨r, hr, hn⟩ : ∃ r ∈ s.db.jobs, f.Names r := by
        rcases hmem f hf with hf | rfl
        · exact h.rows f hf
        · obtain ⟨r, hr, he⟩ := h.tasks u hu
          exact ⟨r, hr, (DB.names_failedJob u.job failure).of_identity he⟩
      obtain ⟨r', hr', hrw⟩ := hw.mem hr
      exact ⟨r', hr', hn.of_identity hrw.identity_eq⟩
    · rw [hfailed']
      rcases hdead r hr hd with hold | hid
      · obtain ⟨f, hf, hfid⟩ := h.dead r hold hd
        refine ⟨f, ?_, hfid⟩
        rw [DB.failedJobs_insertFailedJob]
        split
        · exact hf
        · exact List.mem_append_left _ hf
      · exact ⟨f₀, hf₀, hid₀.trans hid.symm⟩

/-- A step of the queue keeps the invariant. -/
theorem Recorded.queue {l : Label E} (h : s.Recorded) (hs : Steps exec s l t) : t.Recorded := by
  have hw : Rewritten s t := rewritten_of_step hs
  cases hs with
  | claim hc =>
    obtain ⟨-, hj, hdb, hfailed⟩ := DB.claimPendingJobs_spec hc
    refine h.rewritten hw (fun u hu => ?_) hfailed fun r hr hd => ?_
    · rcases Table.mem_insertAll hu with hu | hu
      · exact h.tasks u hu
      · obtain ⟨j, hjm, rfl⟩ := List.mem_map.1 hu
        obtain ⟨r, hr, -, -, rfl⟩ := hj j hjm
        exact ⟨r, (Table.find_eq_some.1 hr).1, rfl⟩
    · have hfind := Table.find_of_mem hr
      simp only [claimed, hdb] at hfind
      split at hfind
      · obtain ⟨r₀, -, rfl⟩ := Option.map_eq_some_iff.1 hfind
        cases hd
      · exact (Table.find_eq_some.1 hfind).1
  | execute hm hout =>
    refine h.rewritten hw (fun u hu => ?_) rfl fun r hr _ => hr
    replace hu : u ∈ s.tasks.update _ _ (Task.executed_key _) := hu
    obtain ⟨u', hu', rfl⟩ := Table.mem_update.1 hu
    obtain ⟨r, hr, he⟩ := h.tasks u' hu'
    exact ⟨r, hr, by split <;> exact he⟩
  | reject hm hout => exact h.closed hm _ _ _ hw
  | finish hm hout => exact h.closed hm _ _ _ hw
  | crash hm =>
    exact h.rewritten hw (fun u hu => h.tasks u (Table.mem_delete.1 hu).1) rfl fun r hr _ => hr
  | recover =>
    refine h.rewritten hw h.tasks rfl fun r hr hd => ?_
    have hfind := Table.find_of_mem hr
    simp only [recovered, DB.find_recoverInterrupted] at hfind
    obtain ⟨r₀, hr₀, heq⟩ := Option.map_eq_some_iff.1 hfind
    split at heq
    · rw [← heq] at hd
      cases hd
    · rw [← heq]
      exact (Table.find_eq_some.1 hr₀).1

/-- So does an insertion. -/
theorem Recorded.insert {jobs : List NewJob} {dbNow n : ℤ} {db : DB} (h : s.Recorded)
    (hins : s.db.insertJobs jobs dbNow = .ok (n, db)) : (s.withDB db).Recorded := by
  obtain ⟨hold, hnew, hfailed⟩ := DB.insertJobs_rows hins
  refine ⟨h.keys.insertJobs hins, fun u hu => ?_, fun f hf => ?_, ?_, fun r hr hd => ?_⟩
  · obtain ⟨r, hr, he⟩ := h.tasks u hu
    exact ⟨r, hold r hr, he⟩
  · replace hf : f ∈ db.failedJobs := hf
    rw [hfailed] at hf
    obtain ⟨r, hr, hn⟩ := h.rows f hf
    exact ⟨r, hold r hr, hn⟩
  · change (db.failedJobs.map FailedJob.jobID).Nodup
    rw [hfailed]
    exact h.once
  · change ∃ f ∈ db.failedJobs, f.jobID = r.id
    rw [hfailed]
    rcases hnew r hr with hr | hp
    · exact h.dead r hr hd
    · cases hp.symm.trans hd

theorem Recorded.serves {e : ServiceEvent E} (h : s.Recorded) (he : Serves exec s e t) : t.Recorded := by
  cases he with
  | queue hs => exact h.queue (steps_of_step hs)
  | @plan stores now dbNow fault =>
    rcases runAt_cases stores now dbNow fault s.db with ⟨-, heq⟩ | ⟨_, _, _, _, _, hins⟩
    · rw [heq]
      exact h
    · exact h.insert hins
  | insert hins => exact h.insert hins

/-- A queue before any job has been given up. -/
def Clean (s : System σ) : Prop :=
  s.Idle ∧ s.db.KeysUnique ∧ s.db.failedJobs = [] ∧ ∀ r ∈ s.db.jobs, r.status ≠ .deadLetter

theorem Clean.recorded (h : s.Clean) : s.Recorded := by
  obtain ⟨hidle, hkeys, hfailed, hdead⟩ := h
  refine ⟨hkeys, fun u hu => ?_, fun f hf => ?_, ?_, fun r hr hd => absurd hd (hdead r hr)⟩
  · rw [← Table.mem_rows, hidle] at hu
    cases hu
  · rw [hfailed] at hf
    cases hf
  · rw [hfailed]
    exact List.nodup_nil

/-- **Dead letters are recorded once.**  Whatever happens to a queue that starts
    without any, every dead-lettered job has exactly one row in
    `failed_collection_jobs`, and that row is about the job. -/
theorem deadLetters_recorded {es : List (ServiceEvent E)} (hs : s.Clean)
    (h : Run (Serves exec) s es t) :
    ∀ r ∈ t.db.jobs, r.status = .deadLetter →
      ∃ f, (t.db.failedJobs.filter fun f => f.jobID = r.id) = [f] ∧ f.Names r := by
  have hrec : t.Recorded := h.inv (fun _ _ _ hi he => hi.serves he) hs.recorded
  intro r hr hd
  obtain ⟨f, hf, hid⟩ := hrec.dead r hr hd
  obtain ⟨r', hr', hn⟩ := hrec.rows f hf
  obtain rfl : r' = r := Table.eq_of_key hr' hr (hn.1.symm.trans hid)
  refine ⟨f, ?_, hn⟩
  rw [← hid]
  exact filter_eq_singleton hrec.once hf

/-- A job with one attempt fails. -/
theorem deadLetters_recorded_oneJob :
    (oneJob 1).Clean ∧ ∃ t : System Unit, Run (Serves plain) (oneJob 1)
        [.queue (.claim 0 10 0 [] .inOrder), .queue (.execute 0 1 (some (.new "boom"))),
          .queue (.finish 0 1 0 1)] t ∧
      ∃ r ∈ t.db.jobs, r.status = .deadLetter ∧
        ∃ f, (t.db.failedJobs.filter fun f => f.jobID = r.id) = [f] ∧ f.Names r := by
  have hclean : (oneJob 1).Clean := ⟨rfl, by decide, rfl, by decide⟩
  obtain ⟨t, ht, hst⟩ := Option.map_eq_some_iff.1 (show (List.foldlM
    (fun (s : System Unit) e => s.serve plain e) (oneJob 1)
    [.queue (.claim 0 10 0 [] .inOrder), .queue (.execute 0 1 (some (.new "boom"))),
      .queue (.finish 0 1 0 1)]).map (·.statusOf 1) = some (some .deadLetter) by decide +kernel)
  obtain ⟨r, hr, hdead⟩ := Option.map_eq_some_iff.1 hst
  have hmem := (Table.find_eq_some.1 hr).1
  exact ⟨hclean, t, run_of_serve ht, r, hmem, hdead,
    deadLetters_recorded hclean (run_of_serve ht) r hmem hdead⟩

end System

end Aggregator.Scheduler
