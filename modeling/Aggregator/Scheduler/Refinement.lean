/-
  The worker refines the queue protocol: a sequence of calls of `Worker.RunOnce`
  is a run of `System`.

  A call claims a batch, which makes one task per job, and closes the tasks one
  by one: a job that the circuit breaker or the limiter refuses is a `reject`,
  one that is executed an `execute` and a `finish`, and one whose store update
  fails a `crash`, as are the jobs behind it.  What an execution returns is a
  choice of the environment (`returned`).

  * `System.run_process`, `System.run_processAll`: one job, and the loop;
  * `Worker.runOnce_refines`: one call, which leaves no task behind;
  * `Worker.calls_refine`: any sequence of calls.
-/
import Aggregator.Scheduler.Isolation
import Aggregator.Scheduler.Queue

namespace Aggregator.Scheduler

/-- The executor whose result is chosen by the environment. -/
def returned {σ : Type} (_ : Job) (err : Option Error) (store : σ) : Option Error × σ :=
  (err, store)

namespace System
variable {σ : Type} {s : System σ} {k worker : ℕ}
  {job : Job} {jobs : List Job} {st : State}

/-- The state after the tasks `ids` of claim `k` are closed: the database is
    `db`, and the other tasks are as they were. -/
structure Closes (s : System σ) (k : ℕ) (ids : List ℤ) (db : DB) (s' : System σ) : Prop where
  db_eq : s'.db = db
  tasks : ∀ key, s'.tasks.find key = if key.1 = k ∧ key.2 ∈ ids then none else s.tasks.find key
  nextClaim : s'.nextClaim = s.nextClaim

theorem Closes.refl (s : System σ) (k : ℕ) : Closes s k [] s.db s :=
  ⟨rfl, fun key => by simp, rfl⟩

theorem Closes.trans {s s' s'' : System σ} {ids ids' : List ℤ} {db db' : DB}
    (h : Closes s k ids db s') (h' : Closes s' k ids' db' s'') :
    Closes s k (ids ++ ids') db' s'' := by
  refine ⟨h'.db_eq, fun key => ?_, h'.nextClaim.trans h.nextClaim⟩
  rw [h'.tasks, h.tasks]
  by_cases hk : key.1 = k <;> by_cases hi : key.2 ∈ ids <;> simp [hk, hi]

theorem find_dropped (s : System σ) (t : Task) (key : ℕ × ℤ) :
    (s.dropped t).tasks.find key = if t.key = key then none else s.tasks.find key := by
  change (s.tasks.delete _).find key = _
  rw [Table.find_delete]
  cases hfind : s.tasks.find key with
  | none => simp
  | some u =>
    obtain rfl := Table.find_key hfind
    by_cases hk : t.key = u.key
    · simp [hk, Option.filter]
    · simp [hk, Ne.symm hk, Option.filter]

/-- A task is gone, and the database is `db`. -/
theorem closes_dropped (s : System σ) (t : Task) (db : DB) :
    Closes s t.claim [t.job.id] db { s.dropped t with db := db } := by
  refine ⟨rfl, fun key => (find_dropped s t key).trans ?_, rfl⟩
  have hiff : t.key = key ↔ key.1 = t.claim ∧ key.2 ∈ [t.job.id] := by
    rw [List.mem_singleton, Task.key, Prod.ext_iff, eq_comm, @eq_comm _ t.job.id]
  simp only [hiff]

/-- The tasks of the jobs are waiting to be executed. -/
def Waits (s : System σ) (k worker : ℕ) (jobs : List Job) : Prop :=
  ∀ j ∈ jobs, s.tasks.find (k, j.id) = some ⟨k, worker, j, none⟩

theorem Waits.mem (h : s.Waits k worker jobs) (hj : job ∈ jobs) :
    (⟨k, worker, job, none⟩ : Task) ∈ s.tasks :=
  (Table.find_eq_some.1 (h job hj)).1

/-- The other jobs wait on. -/
theorem Closes.waits {s' : System σ} {ids : List ℤ} {db : DB} (hc : Closes s k ids db s')
    (h : s.Waits k worker jobs) (hids : ∀ j ∈ jobs, j.id ∉ ids) : s'.Waits k worker jobs := by
  intro j hj
  rw [hc.tasks, if_neg fun hk => hids j hj hk.2]
  exact h j hj

/-- An execution changes its own task only. -/
theorem find_ran (s : System σ) (t : Task) (err : Option Error) (store : σ) {key : ℕ × ℤ}
    (hk : t.key ≠ key) : (s.ran t err store).tasks.find key = s.tasks.find key := by
  simp only [ran, Table.find_update]
  cases hfind : s.tasks.find key with
  | none => rfl
  | some u =>
    obtain rfl := Table.find_key hfind
    simp [Ne.symm hk]

/-- A waiting task is executed, and its outcome written. -/
theorem run_executed {t : Task} (ht : t ∈ s.tasks) (hw : t.outcome = none) (err : Option Error)
    (nextRun now : ℤ) :
    ∃ ls s', Run (Steps returned) s ls s' ∧
      Closes s t.claim [t.job.id] (s.db.settle t.job nextRun now (.executed err)) s' := by
  have hran : t.executed err ∈ (s.ran t err s.store).tasks := by
    simp only [ran, Table.mem_update]
    exact ⟨t, ht, by simp⟩
  have hexecute : Steps returned s (.execute t.claim t.job.id err) (s.ran t err s.store) :=
    .execute ht hw
  have hfinish : Steps returned (s.ran t err s.store)
      (.finish (t.executed err).claim (t.executed err).job.id nextRun now)
      ((s.ran t err s.store).closed (t.executed err) nextRun now (.executed err)) :=
    .finish hran rfl
  refine ⟨_, _, .cons hexecute (.single hfinish), ?_⟩
  have hclosed := closes_dropped (s.ran t err s.store) (t.executed err)
    (s.db.settle t.job nextRun now (.executed err))
  refine ⟨rfl, fun key => (hclosed.tasks key).trans ?_, rfl⟩
  by_cases hk : key.1 = t.claim ∧ key.2 ∈ [t.job.id]
  · exact (if_pos hk).trans (if_pos hk).symm
  · refine (if_neg hk).trans ((find_ran s t err s.store fun he => hk ?_).trans (if_neg hk).symm)
    rw [← he]
    exact ⟨rfl, List.mem_singleton_self _⟩

/-- **One job**: refused, executed and written back, or given up. -/
theorem run_process (w : Worker) (a : Attempt) (hdb : st.db = s.db) (h : s.Waits k worker [job]) :
    ∃ ls s', Run (Steps returned) s ls s' ∧
      Closes s k [job.id] (w.process a job st).2.db s' := by
  have hmem := h.mem List.mem_cons_self
  cases hs : a.storeErr with
  | some err =>
    rw [(Worker.process_of_err w job st hs).2.1, hdb]
    exact ⟨_, _, .single (.crash hmem), closes_dropped s ⟨k, worker, job, none⟩ s.db⟩
  | none =>
    rw [(Worker.process_of_ok w job st hs).2.1, hdb]
    cases (w.attempt a job st.breaker).1 with
    | rejected err =>
      exact ⟨_, _, .single (.reject hmem rfl), closes_dropped s ⟨k, worker, job, none⟩ _⟩
    | throttled err =>
      -- the store update is that of a refusal
      exact ⟨_, _, .single (.reject hmem rfl), closes_dropped s ⟨k, worker, job, none⟩ _⟩
    | executed err => exact run_executed hmem rfl err _ _

/-- The jobs behind a failed store update are given up. -/
theorem run_crashes (hn : (jobs.map Job.id).Nodup) (h : s.Waits k worker jobs) :
    ∃ ls s', Run (Steps (returned (σ := σ))) s ls s' ∧ Closes s k (jobs.map Job.id) s.db s' := by
  induction jobs generalizing s with
  | nil => exact ⟨[], s, .nil s, .refl s k⟩
  | cons job jobs ih =>
    obtain ⟨hnj, hn⟩ := List.nodup_cons.1 hn
    have hfirst := closes_dropped s ⟨k, worker, job, none⟩ s.db
    have hrest : (s.dropped ⟨k, worker, job, none⟩).Waits k worker jobs := by
      refine hfirst.waits (fun j hj => h j (List.mem_cons_of_mem _ hj)) fun j hj he => hnj ?_
      exact List.mem_singleton.1 he ▸ List.mem_map_of_mem hj
    obtain ⟨ls, s', hrun, hcloses⟩ := ih hn hrest
    exact ⟨_, s', .cons (.crash (h.mem List.mem_cons_self)) hrun, hfirst.trans hcloses⟩

/-- **The loop.** -/
theorem run_processAll (w : Worker) (env : ℕ → Attempt) (n : ℕ) (hdb : st.db = s.db) (hn : (jobs.map Job.id).Nodup)
    (h : s.Waits k worker jobs) :
    ∃ ls s', Run (Steps returned) s ls s' ∧
      Closes s k (jobs.map Job.id) (w.processAll env n jobs st).2.2.db s' := by
  induction jobs generalizing s st n with
  | nil => exact ⟨[], s, .nil s, hdb ▸ .refl s k⟩
  | cons job jobs ih =>
    obtain ⟨hnj, hn⟩ := List.nodup_cons.1 hn
    obtain ⟨ls, s₁, hrun, hfirst⟩ := run_process w (env n) hdb fun j hj =>
      h j (List.mem_singleton.1 hj ▸ List.mem_cons_self)
    have hwait : s₁.Waits k worker jobs := by
      refine hfirst.waits (fun j hj => h j (List.mem_cons_of_mem _ hj)) fun j hj he => hnj ?_
      exact List.mem_singleton.1 he ▸ List.mem_map_of_mem hj
    cases hs : (env n).storeErr with
    | some err =>
      obtain ⟨ls', s₂, hrun', hrest⟩ := run_crashes hn hwait
      rw [Worker.processAll_of_err hs]
      rw [hfirst.db_eq] at hrest
      exact ⟨_, s₂, hrun.append hrun', hfirst.trans hrest⟩
    | none =>
      obtain ⟨ls', s₂, hrun', hrest⟩ := ih (n + 1) hfirst.db_eq.symm hn hwait
      rw [Worker.processAll_of_ok hs]
      exact ⟨_, s₂, hrun.append hrun', hfirst.trans hrest⟩

/-- Claims are numbered. -/
def Numbered (s : System σ) : Prop := ∀ t ∈ s.tasks, t.claim < s.nextClaim

/-- A claim adds a waiting task for each of its jobs. -/
theorem mem_claimed (hs : s.Numbered) (hn : (jobs.map Job.id).Nodup) (db : DB) {t : Task} :
    t ∈ (s.claimed worker jobs db).tasks ↔
      t ∈ s.tasks ∨ ∃ j ∈ jobs, (⟨s.nextClaim, worker, j, none⟩ : Task) = t := by
  have hkey : ∀ r, r ∈ s.tasks ∨ r ∈ jobs.map (fun j => (⟨s.nextClaim, worker, j, none⟩ : Task)) →
      ∀ u ∈ jobs.map (fun j => (⟨s.nextClaim, worker, j, none⟩ : Task)), r.key = u.key → r = u := by
    intro r hr u hu hk
    obtain ⟨j, hj, rfl⟩ := List.mem_map.1 hu
    obtain ⟨hclaim, hid⟩ := Prod.mk.inj hk
    rcases hr with hr | hr
    · exact absurd hclaim (hs r hr).ne
    · obtain ⟨j', hj', rfl⟩ := List.mem_map.1 hr
      rw [List.inj_on_of_nodup_map hn hj' hj hid]
  exact (Table.mem_insertAll_iff hkey).trans (or_congr_right List.mem_map)

theorem claimed_waits (hs : s.Numbered) (hn : (jobs.map Job.id).Nodup) (db : DB) :
    (s.claimed worker jobs db).Waits s.nextClaim worker jobs := by
  intro j hj
  exact Table.find_eq_some.2 ⟨(mem_claimed hs hn db).2 (.inr ⟨j, hj, rfl⟩), rfl⟩

/-- Closing the tasks of a claim takes the tasks back to those before it. -/
theorem tasks_of_closes (hs : s.Numbered) (hn : (jobs.map Job.id).Nodup) {db db' : DB}
    {s' : System σ}
    (h : Closes (s.claimed worker jobs db) s.nextClaim (jobs.map Job.id) db' s') (t : Task) :
    t ∈ s'.tasks ↔ t ∈ s.tasks := by
  have hfind := h.tasks t.key
  have hiff : t ∈ s'.tasks ↔ s'.tasks.find t.key = some t := by
    rw [Table.find_eq_some, and_iff_left rfl]
  rw [hiff, hfind]
  by_cases hk : t.key.1 = s.nextClaim ∧ t.key.2 ∈ jobs.map Job.id
  · rw [if_pos hk]
    refine iff_of_false (by simp) fun ht => ?_
    exact absurd hk.1 (hs t ht).ne
  · rw [if_neg hk, Table.find_eq_some, and_iff_left rfl, mem_claimed hs hn db, or_iff_left]
    rintro ⟨j, hj, rfl⟩
    exact hk ⟨rfl, List.mem_map_of_mem hj⟩

end System

namespace Worker
variable {σ : Type} {s : System σ} {st st' : State}

/-- **A call of `RunOnce` is a run of the protocol**, and leaves the tasks of
    other workers as they are. -/
theorem runOnce_refines (w : Worker) (c : Call) (worker : ℕ) (hdb : st.db = s.db)
    (hs : s.Numbered) :
    ∃ ls s', Run (System.Steps returned) s ls s' ∧ s'.db = (w.runOnce c st).2.2.db ∧
      s'.Numbered ∧ ∀ t, t ∈ s'.tasks ↔ t ∈ s.tasks := by
  cases hclaim : w.claim c st.db with
  | error err =>
    rw [runOnce_of_error hclaim]
    exact ⟨[], s, .nil s, hdb.symm, hs, fun _ => Iff.rfl⟩
  | ok r =>
    obtain ⟨jobs, db⟩ := r
    obtain ⟨limit, hpending⟩ := claim_spec hclaim
    obtain ⟨hn, -⟩ := claim_running hclaim
    rw [runOnce_of_ok hclaim]
    rw [hdb] at hpending
    have hstart : ({ st with failedUpdates := [], db := db } : State).db =
        (s.claimed worker jobs db).db := rfl
    obtain ⟨ls, s', hrun, hcloses⟩ := System.run_processAll w c.attempts 0 hstart hn
      (System.claimed_waits hs hn db)
    have htasks := System.tasks_of_closes hs hn hcloses
    refine ⟨_, s', .cons (.claim hpending) hrun, hcloses.db_eq, fun t ht => ?_, htasks⟩
    rw [hcloses.nextClaim]
    exact ((hs t ((htasks t).1 ht)).trans (Nat.lt_succ_self _))

/-- **So is a sequence of calls.** -/
theorem calls_refine {calls : List (Worker × Call)} (worker : ℕ) (hdb : st.db = s.db)
    (hs : s.Numbered) (h : Run Calls st calls st') :
    ∃ ls s', Run (System.Steps returned) s ls s' ∧ s'.db = st'.db ∧
      s'.Numbered ∧ ∀ t, t ∈ s'.tasks ↔ t ∈ s.tasks := by
  induction h generalizing s with
  | nil st => exact ⟨[], s, .nil s, hdb.symm, hs, fun _ => Iff.rfl⟩
  | @cons st _ _ call _ hcall _ ih =>
    obtain ⟨ls, s₁, hrun, hdb₁, hs₁, ht₁⟩ := runOnce_refines call.1 call.2 worker hdb hs
    rw [Calls] at hcall
    obtain ⟨ls', s₂, hrun', hdb₂, hs₂, ht₂⟩ := ih (by rw [hcall, hdb₁]) hs₁
    exact ⟨_, s₂, hrun.append hrun', hdb₂, hs₂, fun t => (ht₂ t).trans (ht₁ t)⟩

end Worker

end Aggregator.Scheduler
