/-
  The job queue as a protocol: any number of workers, interleaved with restart
  recovery.

  A worker claims jobs, executes each of them and writes the outcome back; each
  SQL statement is one atomic step.  Between its claim and its outcome a job is a
  `Task` in the worker's memory, with the row as it was claimed.  A worker that
  dies (or returns early) leaves its tasks unfinished (`crash`), and
  `RecoverInterrupted` makes old running rows pending again, whether or not the
  task is still alive.

  The updates that write an outcome are keyed by the job's id only, so a task
  that outlives a recovery writes over whatever has happened since
  (`System.slow_worker_overwrites`).  As long as recovery resets only rows
  without a live task (`System.RecoversDead`), every live task is the most recent
  claim of its job, and the row is still as it was claimed (`System.Owned`);
  hence `System.status_owned`: a terminal status is kept, and a status is changed
  by the most recent claim only.
-/
import Aggregator.Lib.Run
import Aggregator.Scheduler.Worker

namespace Aggregator.Scheduler

open Aggregator.Go

/-- A claimed job in a worker's memory; `outcome` is what the execution
    returned, once it has been executed. -/
structure Task where
  claim : ℕ
  worker : ℕ
  job : Job
  outcome : Option (Option Error)

namespace Task

def key (t : Task) : ℕ × ℤ := (t.claim, t.job.id)

def executed (err : Option Error) (t : Task) : Task := { t with outcome := some err }

theorem executed_key (err : Option Error) (t : Task) : (t.executed err).key = t.key := rfl

end Task

/-- The state of the protocol.  `lastClaim` and `log`, the most recent claim of
    a job and the jobs that were executed, are not kept by the program; `store` is
    what executions work on. -/
structure System (σ : Type) where
  db : DB
  tasks : Table Task.key
  nextClaim : ℕ
  lastClaim : ℤ → Option ℕ
  log : List Job
  store : σ

inductive Label (E : Type) where
  | claim (worker : ℕ) (limit now : ℤ) (locked : List ℤ) (ret : Returning)
  | execute (claim : ℕ) (id : ℤ) (env : E)
  /-- the circuit breaker or the limiter refuses the job -/
  | reject (claim : ℕ) (id : ℤ) (err : Error) (nextRun now : ℤ)
  | finish (claim : ℕ) (id : ℤ) (nextRun now : ℤ)
  | crash (claim : ℕ) (id : ℤ)
  | recover (timeout clock now : ℤ)

namespace System
variable {σ E : Type}

/-- After a claim. -/
def claimed (s : System σ) (worker : ℕ) (jobs : List Job) (db : DB) : System σ :=
  { s with
    db := db
    tasks := s.tasks.insertAll (jobs.map fun j => ⟨s.nextClaim, worker, j, none⟩)
    nextClaim := s.nextClaim + 1
    lastClaim := fun id => if id ∈ jobs.map Job.id then some s.nextClaim else s.lastClaim id }

/-- After an execution that returned `err`. -/
def ran (s : System σ) (t : Task) (err : Option Error) (store : σ) : System σ :=
  { s with
    tasks := s.tasks.update (fun u => u.key = t.key) (Task.executed err) (Task.executed_key err)
    log := s.log ++ [t.job]
    store := store }

/-- Without a task. -/
def dropped (s : System σ) (t : Task) : System σ :=
  { s with tasks := s.tasks.delete fun u => u.key = t.key }

/-- After the outcome of a task has been written. -/
def closed (s : System σ) (t : Task) (nextRun now : ℤ) (outcome : Outcome) : System σ :=
  { s.dropped t with db := s.db.settle t.job nextRun now outcome }

/-- After a recovery. -/
def recovered (s : System σ) (timeout clock now : ℤ) : System σ :=
  { s with db := s.db.recoverInterrupted timeout clock now }

/-- One step; `exec` is the executor. -/
def step (exec : Job → E → σ → Option Error × σ) (s : System σ) : Label E → Option (System σ)
  | .claim worker limit now locked ret =>
    match s.db.claimPendingJobs limit now locked ret with
    | .error _ => none
    | .ok (jobs, db) => some (s.claimed worker jobs db)
  | .execute claim id env => do
    let t ← s.tasks.find (claim, id)
    match t.outcome with
    | none => let (err, store) := exec t.job env s.store; some (s.ran t err store)
    | some _ => none
  | .reject claim id err nextRun now => do
    let t ← s.tasks.find (claim, id)
    match t.outcome with
    | none => some (s.closed t nextRun now (.rejected err))
    | some _ => none
  | .finish claim id nextRun now => do
    let t ← s.tasks.find (claim, id)
    match t.outcome with
    | none => none
    | some err => some (s.closed t nextRun now (.executed err))
  | .crash claim id => do
    let t ← s.tasks.find (claim, id)
    some (s.dropped t)
  | .recover timeout clock now => some (s.recovered timeout clock now)

/-! ## What a step does -/

/-- The steps as a relation. -/
inductive Steps (exec : Job → E → σ → Option Error × σ) (s : System σ) :
    Label E → System σ → Prop
  | claim {worker limit now locked ret jobs db} :
      s.db.claimPendingJobs limit now locked ret = .ok (jobs, db) →
      Steps exec s (.claim worker limit now locked ret) (s.claimed worker jobs db)
  | execute {t env} : t ∈ s.tasks → t.outcome = none →
      Steps exec s (.execute t.claim t.job.id env)
        (s.ran t (exec t.job env s.store).1 (exec t.job env s.store).2)
  | reject {t err nextRun now} : t ∈ s.tasks → t.outcome = none →
      Steps exec s (.reject t.claim t.job.id err nextRun now) (s.closed t nextRun now (.rejected err))
  | finish {t err nextRun now} : t ∈ s.tasks → t.outcome = some err →
      Steps exec s (.finish t.claim t.job.id nextRun now) (s.closed t nextRun now (.executed err))
  | crash {t} : t ∈ s.tasks → Steps exec s (.crash t.claim t.job.id) (s.dropped t)
  | recover {timeout clock now} :
      Steps exec s (.recover timeout clock now) (s.recovered timeout clock now)

theorem steps_of_step {exec : Job → E → σ → Option Error × σ} {s s' : System σ} {l : Label E}
    (h : s.step exec l = some s') : Steps exec s l s' := by
  have hfind : ∀ {claim id t}, s.tasks.find (claim, id) = some t →
      t ∈ s.tasks ∧ claim = t.claim ∧ id = t.job.id := by
    intro claim id t ht
    obtain ⟨hm, hk⟩ := Table.find_eq_some.1 ht
    exact ⟨hm, (congrArg Prod.fst hk).symm, (congrArg Prod.snd hk).symm⟩
  cases l with
  | claim worker limit now locked ret =>
    simp only [step] at h
    split at h
    · cases h
    · rename_i hc
      obtain rfl := Option.some.inj h
      exact .claim hc
  | recover timeout clock now => obtain rfl := Option.some.inj h; exact .recover
  | crash claim id =>
    obtain ⟨t, ht, h'⟩ := Option.bind_eq_some_iff.1 h
    obtain ⟨hm, rfl, rfl⟩ := hfind ht
    obtain rfl := Option.some.inj h'
    exact .crash hm
  | execute claim id env =>
    obtain ⟨t, ht, h'⟩ := Option.bind_eq_some_iff.1 h
    obtain ⟨hm, rfl, rfl⟩ := hfind ht
    cases ho : t.outcome with
    | none => simp only [ho] at h'; obtain rfl := Option.some.inj h'; exact .execute hm ho
    | some err => simp [ho] at h'
  | reject claim id err nextRun now =>
    obtain ⟨t, ht, h'⟩ := Option.bind_eq_some_iff.1 h
    obtain ⟨hm, rfl, rfl⟩ := hfind ht
    cases ho : t.outcome with
    | none => simp only [ho] at h'; obtain rfl := Option.some.inj h'; exact .reject hm ho
    | some err => simp [ho] at h'
  | finish claim id nextRun now =>
    obtain ⟨t, ht, h'⟩ := Option.bind_eq_some_iff.1 h
    obtain ⟨hm, rfl, rfl⟩ := hfind ht
    cases ho : t.outcome with
    | none => simp [ho] at h'
    | some err => simp only [ho] at h'; obtain rfl := Option.some.inj h'; exact .finish hm ho

/-! ## Ownership -/

/-- A live task is the most recent claim of its job, and the row of the job is
    as the task has it. -/
def Owned (s : System σ) : Prop :=
  ∀ t ∈ s.tasks, s.lastClaim t.job.id = some t.claim ∧
    s.db.jobs.find t.job.id = some t.job ∧ t.job.status = .running

/-- A recovery resets only rows without a live task. -/
def RecoversDead (s : System σ) : Label E → Prop
  | .recover timeout clock _ => ∀ r ∈ s.db.jobs,
      DB.interrupted (clock - DB.recoveryTimeout timeout) r → ∀ t ∈ s.tasks, t.job.id ≠ r.id
  | _ => True

/-- No worker is at work. -/
def Idle (s : System σ) : Prop := s.tasks.rows = []

theorem Idle.owned {s : System σ} (h : s.Idle) : s.Owned := by
  intro t ht
  rw [← Table.mem_rows, h] at ht
  cases ht

theorem Owned.unique {s : System σ} (h : s.Owned) {t u : Task} (ht : t ∈ s.tasks)
    (hu : u ∈ s.tasks) (hid : t.job.id = u.job.id) : t = u := by
  refine Table.eq_of_key ht hu (Prod.ext ?_ hid)
  exact Option.some.inj ((h t ht).1.symm.trans (hid ▸ (h u hu).1))

theorem Owned.claimed {s : System σ} (h : s.Owned) {worker : ℕ} {limit now : ℤ} {locked : List ℤ}
    {ret : Returning} {jobs : List Job} {db : DB}
    (hc : s.db.claimPendingJobs limit now locked ret = .ok (jobs, db)) :
    (s.claimed worker jobs db).Owned := by
  obtain ⟨-, hj, hdb, -⟩ := DB.claimPendingJobs_spec hc
  intro t ht
  simp only [System.claimed, hdb]
  rcases Table.mem_insertAll ht with ht | ht
  · -- an earlier task's row is running, so it is not claimed
    obtain ⟨hl, hf, hst⟩ := h t ht
    have hn : t.job.id ∉ jobs.map Job.id := by
      intro hm
      obtain ⟨j, hjm, hid⟩ := List.mem_map.1 hm
      obtain ⟨r, hr, hp, -⟩ := hj j hjm
      rw [hid, hf] at hr
      obtain rfl := Option.some.inj hr
      simp [hst] at hp
    rw [if_neg hn, if_neg hn]
    exact ⟨hl, hf, hst⟩
  · obtain ⟨j, hjm, rfl⟩ := List.mem_map.1 ht
    obtain ⟨r, hr, -, -, rfl⟩ := hj j hjm
    have hm := List.mem_map_of_mem (f := Job.id) hjm
    rw [if_pos hm, if_pos hm, hr]
    exact ⟨rfl, rfl, rfl⟩

theorem Owned.dropped {s : System σ} (h : s.Owned) (t : Task) : (s.dropped t).Owned :=
  fun u hu => h u (Table.mem_delete.1 hu).1

theorem Owned.closed {s : System σ} (h : s.Owned) {t : Task} (ht : t ∈ s.tasks) {nextRun now : ℤ}
    {outcome : Outcome} : (s.closed t nextRun now outcome).Owned := by
  intro u hu
  obtain ⟨hu, hne⟩ := Table.mem_delete.1 hu
  obtain ⟨hl, hf, hst⟩ := h u hu
  have hid : u.job.id ≠ t.job.id := by
    intro hid
    rw [h.unique hu ht hid] at hne
    simp at hne
  exact ⟨hl, (DB.find_settle_ne hid).trans hf, hst⟩

theorem Owned.ran {s : System σ} (h : s.Owned) (t : Task) (err : Option Error) (store : σ) :
    (s.ran t err store).Owned := by
  intro u hu
  replace hu : u ∈ s.tasks.update _ _ (Task.executed_key err) := hu
  obtain ⟨u', hu', rfl⟩ := Table.mem_update.1 hu
  split <;> exact h u' hu'

theorem Owned.recovered {s : System σ} (h : s.Owned) {timeout clock now : ℤ}
    (hd : ∀ r ∈ s.db.jobs, DB.interrupted (clock - DB.recoveryTimeout timeout) r →
      ∀ t ∈ s.tasks, t.job.id ≠ r.id) : (s.recovered timeout clock now).Owned := by
  intro t ht
  obtain ⟨hl, hf, hst⟩ := h t ht
  refine ⟨hl, ?_, hst⟩
  have hni : ¬ DB.interrupted (clock - DB.recoveryTimeout timeout) t.job := fun hi =>
    hd t.job (Table.find_eq_some.1 hf).1 hi t ht rfl
  simp [System.recovered, hf, hni]

variable {exec : Job → E → σ → Option Error × σ} {s t u : System σ}

/-- **A step keeps ownership**, unless it recovers the row of a live task. -/
theorem Owned.step {l : Label E} (h : s.Owned) (hd : s.RecoversDead l) (hs : Steps exec s l t) :
    t.Owned := by
  cases hs with
  | claim hc => exact h.claimed hc
  | execute hm ho => exact h.ran _ _ _
  | reject hm ho => exact h.closed hm
  | finish hm ho => exact h.closed hm
  | crash hm => exact h.dropped _
  | recover => exact h.recovered hd

/-! ## Statuses -/

/-- The step is a claim, a recovery, or taken by the most recent claim of the
    job. -/
def ActsFor (s : System σ) (id : ℤ) : Label E → Prop
  | .claim .. | .recover .. => True
  | .reject claim i .. | .finish claim i .. => i = id ∧ s.lastClaim id = some claim
  | .execute .. | .crash .. => False

/-- What a step may do to the row of a job: nothing, or change one that is not
    terminal. -/
def Changes (s : System σ) (l : Label E) (id : ℤ) (r r' : Job) : Prop :=
  r' = r ∨ ¬ r.status.Terminal ∧ s.ActsFor id l

theorem closed_changes (h : s.Owned) {τ : Task} (hm : τ ∈ s.tasks) {nextRun now : ℤ}
    {outcome : Outcome} {l : Label E} (hl : s.ActsFor τ.job.id l) {id : ℤ} {r : Job}
    (hr : s.db.jobs.find id = some r) :
    ∃ r', (s.closed τ nextRun now outcome).db.jobs.find id = some r' ∧ s.Changes l id r r' := by
  by_cases hid : id = τ.job.id
  · subst hid
    obtain ⟨-, hf, hst⟩ := h τ hm
    obtain ⟨r', hr', -⟩ := DB.settle_cases nextRun now outcome hf
    obtain rfl := Option.some.inj (hf.symm.trans hr)
    exact ⟨r', hr', .inr ⟨by simp [JobStatus.Terminal, hst], hl⟩⟩
  · exact ⟨r, (DB.find_settle_ne hid).trans hr, .inl rfl⟩

/-- **What a step does to a row**, as long as tasks own their jobs. -/
theorem step_changes {l : Label E} (h : s.Owned) (hs : Steps exec s l t) {id : ℤ} {r : Job}
    (hr : s.db.jobs.find id = some r) :
    ∃ r', t.db.jobs.find id = some r' ∧ s.Changes l id r r' := by
  cases hs with
  | claim hc =>
    obtain ⟨-, hj, hdb, -⟩ := DB.claimPendingJobs_spec hc
    simp only [claimed, hdb]
    split
    · rename_i hm
      obtain ⟨j, hjm, hid⟩ := List.mem_map.1 hm
      obtain ⟨r₀, hr₀, hp, -⟩ := hj j hjm
      rw [hid, hr] at hr₀
      obtain rfl := Option.some.inj hr₀
      exact ⟨_, by rw [hr]; rfl, .inr ⟨by simp [JobStatus.Terminal, hp], trivial⟩⟩
    · exact ⟨r, hr, .inl rfl⟩
  | execute hm ho => exact ⟨r, hr, .inl rfl⟩
  | reject hm ho => exact closed_changes h hm (by exact ⟨rfl, (h _ hm).1⟩) hr
  | finish hm ho => exact closed_changes h hm (by exact ⟨rfl, (h _ hm).1⟩) hr
  | crash hm => exact ⟨r, hr, .inl rfl⟩
  | recover =>
    simp only [recovered, DB.find_recoverInterrupted, hr, Option.map_some]
    refine ⟨_, rfl, ?_⟩
    split
    · rename_i hi
      simp only [DB.interrupted, Bool.and_eq_true, decide_eq_true_eq] at hi
      exact .inr ⟨by simp [JobStatus.Terminal, hi.1], trivial⟩
    · exact .inl rfl

/-- The steps of the protocol under the condition that recovery resets dead jobs
    only. -/
def Recovering (exec : Job → E → σ → Option Error × σ) : System σ → Label E → System σ → Prop :=
  Restrict (fun s l t => s.step exec l = some t) RecoversDead

theorem owned_of_run {ls : List (Label E)} (hs : s.Owned) (h : Run (Recovering exec) s ls t) :
    t.Owned :=
  h.inv (fun _ _ _ ho hl => ho.step hl.1 (steps_of_step hl.2)) hs

/-- **Terminal statuses are final, and statuses are changed by the most recent
    claim**, in every run from an idle state in which recovery resets only jobs
    without a live task. -/
theorem status_owned {s₀ : System σ} {ls₁ ls₂ : List (Label E)} (hs : s₀.Idle)
    (h₁ : Run (Recovering exec) s₀ ls₁ s) (h₂ : Run (Recovering exec) s ls₂ t) :
    (∀ id r, s.db.jobs.find id = some r → r.status.Terminal →
      ∃ r', t.db.jobs.find id = some r' ∧ r'.status = r.status) ∧
    (∀ l u, Recovering exec s l u → ∀ id r r', s.db.jobs.find id = some r →
      u.db.jobs.find id = some r' → r'.status ≠ r.status → s.ActsFor id l) := by
  have ho : s.Owned := owned_of_run hs.owned h₁
  constructor
  · let R (s t : System σ) : Prop := ∀ id r, s.db.jobs.find id = some r → r.status.Terminal →
      ∃ r', t.db.jobs.find id = some r' ∧ r'.status = r.status
    refine Run.rel (I := Owned) (R := R) (fun s id r hr _ => ⟨r, hr, rfl⟩) ?_
      (fun _ _ _ ho hl => ho.step hl.1 (steps_of_step hl.2)) ?_ h₂ ho
    · intro s t u hst htu id r hr hterm
      obtain ⟨r', hr', he⟩ := hst id r hr hterm
      obtain ⟨r'', hr'', he'⟩ := htu id r' hr' (he ▸ hterm)
      exact ⟨r'', hr'', he'.trans he⟩
    · intro s l t ho hl id r hr hterm
      obtain ⟨r', hr', rfl | ⟨hn, -⟩⟩ := step_changes ho (steps_of_step hl.2) hr
      exacts [⟨r', hr', rfl⟩, absurd hterm hn]
  · intro l u hl id r r' hr hr' hne
    obtain ⟨r'', hr'', rfl | ⟨-, ha⟩⟩ := step_changes ho (steps_of_step hl.2) hr
    · rw [hr'] at hr''
      obtain rfl := Option.some.inj hr''
      exact absurd rfl hne
    · exact ha

/-! ## Two runs -/

instance (s : System σ) : (l : Label E) → Decidable (s.RecoversDead l)
  | .recover timeout clock _ => inferInstanceAs (Decidable (∀ r ∈ s.db.jobs,
      DB.interrupted (clock - DB.recoveryTimeout timeout) r → ∀ t ∈ s.tasks, t.job.id ≠ r.id))
  | .claim .. | .execute .. | .reject .. | .finish .. | .crash .. => isTrue trivial

/-- An executor that returns what the environment says. -/
def plain (_ : Job) (err : Option Error) (_ : Unit) : Option Error × Unit := (err, ())

/-- One planned job, and no worker. -/
def oneJob (maxRetry : ℤ) : System Unit :=
  ⟨⟨⟨[.sample 1 "kline" maxRetry 0], List.nodup_singleton _⟩, []⟩, .empty, 0, fun _ => none, [], ()⟩

def statusOf (s : System σ) (id : ℤ) : Option JobStatus := (s.db.jobs.find id).map Job.status

theorem status_owned_oneJob :
    ∃ s t, Run (Recovering plain) (oneJob 3)
        [.claim 0 10 0 [] .inOrder, .execute 0 1 none, .finish 0 1 0 1] s ∧
      Run (Recovering plain) s [.recover 0 hour hour] t ∧
      ∃ r r', s.db.jobs.find 1 = some r ∧ r.status = .succeeded ∧
        t.db.jobs.find 1 = some r' ∧ r'.status = r.status := by
  obtain ⟨s, hs, hv⟩ := Option.map_eq_some_iff.1 (show (List.foldlM
    (fun (s : System Unit) l => if s.RecoversDead l then s.step plain l else none) (oneJob 3)
    [.claim 0 10 0 [] .inOrder, .execute 0 1 none, .finish 0 1 0 1]).map
      (fun s => (s.statusOf 1, decide (s.RecoversDead (E := Option Error) (.recover 0 hour hour)))) =
    some (some .succeeded, true) by decide +kernel)
  obtain ⟨hst, hd⟩ := Prod.mk.inj hv
  obtain ⟨r, hr, hst⟩ := Option.map_eq_some_iff.1 hst
  have h₁ := Run.of_foldlM_restrict hs
  have h₂ : Run (Recovering plain) s [.recover 0 hour hour] (s.recovered 0 hour hour) :=
    .cons ⟨of_decide_eq_true hd, rfl⟩ (.nil _)
  obtain ⟨r', hr', he⟩ := (status_owned (by rfl) h₁ h₂).1 1 r hr (.inl hst)
  exact ⟨s, _, h₁, h₂, r, r', hr, hst, hr', he⟩

/-- A worker is slow, its job is recovered and claimed by another worker, which
    succeeds; the first worker then writes its failure over the success, and is not
    the most recent claim. -/
theorem slow_worker_overwrites :
    ∃ (ls : List (Label (Option Error))) (s t : System Unit),
      Run (fun s l t => s.step plain l = some t) (oneJob 3) ls s ∧
      s.step plain (.finish 0 1 (17 * minute) (17 * minute)) = some t ∧
      s.statusOf 1 = some .succeeded ∧ t.statusOf 1 = some .pending ∧
      ¬ s.ActsFor (E := Option Error) 1 (.finish 0 1 (17 * minute) (17 * minute)) := by
  let ls : List (Label (Option Error)) :=
    [.claim 0 10 0 [] .inOrder, .execute 0 1 (some (newExecutionError .serverError true none)),
      .recover 0 (16 * minute) (16 * minute), .claim 1 10 (16 * minute) [] .inOrder,
      .execute 1 1 none, .finish 1 1 0 (16 * minute)]
  obtain ⟨s, hs, hv⟩ := Option.map_eq_some_iff.1 (show
    (ls.foldlM (fun (s : System Unit) l => s.step plain l) (oneJob 3)).map (fun s =>
      (s.statusOf 1, s.lastClaim 1,
        (s.step plain (.finish 0 1 (17 * minute) (17 * minute))).map (·.statusOf 1))) =
    some (some .succeeded, some 1, some (some .pending)) by decide +kernel)
  simp only [Prod.mk.injEq] at hv
  obtain ⟨t, ht, hst⟩ := Option.map_eq_some_iff.1 hv.2.2
  exact ⟨ls, s, t, Run.of_foldlM hs, ht, hv.1, hst, fun h => by simp [ActsFor, hv.2.1] at h⟩

end System

end Aggregator.Scheduler
