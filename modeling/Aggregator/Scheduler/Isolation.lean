/-
  What dead-letters a job.

  Over runs of `RunOnce` by workers that share the store and the circuit
  breaker, a job is given up only on account of its own attempts: the last one
  executed it and failed for good, or at least `max_retry` of them failed
  (`Worker.deadLetter_own_attempts`).  A refusal by the circuit breaker or the
  limiter is a failed attempt too, so a job can be given up without having been
  executed (`Worker.deadLetter_unexecuted`), once failures of others have opened
  the circuit.

  The invariant: `retry_count` never exceeds the failed attempts in the log.
-/
import Aggregator.Lib.Run
import Aggregator.Scheduler.Worker

namespace Aggregator.Scheduler

open Aggregator.Go Aggregator.Ratelimit

/-- The outcomes of the attempts at a job. -/
def attemptsAt (log : List (ℤ × Outcome)) (id : ℤ) : List Outcome :=
  (log.filter fun e => e.1 = id).map Prod.snd

@[simp] theorem attemptsAt_append (log : List (ℤ × Outcome)) (i id : ℤ) (o : Outcome) :
    attemptsAt (log ++ [(i, o)]) id =
      if i = id then attemptsAt log id ++ [o] else attemptsAt log id := by
  unfold attemptsAt
  rw [List.filter_append, List.map_append]
  by_cases h : i = id <;> simp [h]

/-- A job was given up on account of its own attempts. -/
def OwnAttempts (r : Job) (attempts : List Outcome) : Prop :=
  (∃ o, attempts.getLast? = some o ∧ o.fatal) ∨ r.maxRetry ≤ (attempts.countP Outcome.failed : ℤ)

/-- The invariant of one row. -/
structure Job.Accounted (r : Job) (attempts : List Outcome) : Prop where
  count : r.retryCount ≤ (attempts.countP Outcome.failed : ℤ)
  dead : r.status = .deadLetter → OwnAttempts r attempts

theorem Job.Accounted.snoc_of_running {r : Job} {attempts : List Outcome}
    (h : r.Accounted attempts) (hr : r.status = .running) (o : Outcome) :
    r.Accounted (attempts ++ [o]) where
  count := by
    have := h.count
    rw [List.countP_append]; push_cast; omega
  dead hd := by simp [hr] at hd

/-- A store update accounts for the attempt it is made for. -/
theorem Job.Accounted.settle {r r' : Job} {attempts : List Outcome} {nextRun now : ℤ} {o : Outcome}
    (h : r.Accounted attempts) (hs : DB.Settles r nextRun now o r r') :
    r'.Accounted (attempts ++ [o]) := by
  have hc := h.count
  have hfail : o.failed = true → ((attempts ++ [o]).countP Outcome.failed : ℤ) =
      attempts.countP Outcome.failed + 1 := by
    intro ho; rw [List.countP_append]; simp [ho]
  rcases hs with ⟨rfl, rfl⟩ | ⟨ho, hd, _, _, rfl⟩ | ⟨⟨ho, -, -⟩, _, rfl⟩
  · exact ⟨by simpa [Job.succeed, Outcome.failed] using hc, fun hd => by simp [Job.succeed] at hd⟩
  · refine ⟨by rw [hfail ho]; simp only [Job.fail]; omega, fun _ => ?_⟩
    rcases hd with hd | hd
    · exact .inl ⟨o, by simp, hd⟩
    · right; rw [hfail ho]; simp only [Job.fail]; omega
  · exact ⟨by rw [hfail ho]; simp only [Job.retry]; omega, fun hd => by simp [Job.retry] at hd⟩

namespace State

/-- The invariant of the runs. -/
def Accounted (s : State) : Prop :=
  ∀ id r, s.db.jobs.find id = some r → r.Accounted (attemptsAt s.log id)

end State

namespace Worker
variable {w : Worker} {s : State} {job : Job} {jobs : List Job}

theorem process_log (a : Attempt) :
    (w.process a job s).2.log = s.log ++ [(job.id, (w.attempt a job s.breaker).1)] := by
  unfold process
  cases a.storeErr <;> rfl

/-- Processing a claimed job keeps the invariant. -/
theorem process_accounted (a : Attempt) (h : s.Accounted) (hj : s.db.jobs.find job.id = some job)
    (hr : job.status = .running) : (w.process a job s).2.Accounted := by
  intro id r hf
  rw [process_log, attemptsAt_append]
  cases hs : a.storeErr with
  | some err =>
    rw [(process_of_err w job s hs).2.1] at hf
    split
    · rename_i hid; subst hid
      obtain rfl := Option.some.inj (hj.symm.trans hf)
      exact (h _ _ hj).snoc_of_running hr _
    · exact h id r hf
  | none =>
    rw [(process_of_ok w job s hs).2.1] at hf
    split
    · rename_i hid; subst hid
      obtain ⟨r', hr', hset⟩ := DB.settle_cases (a.clock + w.backoff job) a.now
        (w.attempt a job s.breaker).1 hj
      obtain rfl := Option.some.inj (hr'.symm.trans hf)
      exact (h _ _ hj).settle hset
    · rename_i hid
      rw [DB.find_settle_ne (Ne.symm hid)] at hf
      exact h id r hf

theorem processAll_accounted {env : ℕ → Attempt} {n : ℕ} (h : s.Accounted)
    (hn : (jobs.map Job.id).Nodup)
    (hj : ∀ j ∈ jobs, s.db.jobs.find j.id = some j ∧ j.status = .running) :
    (w.processAll env n jobs s).2.2.Accounted := by
  induction jobs generalizing n s with
  | nil => exact h
  | cons job jobs ih =>
    obtain ⟨hnj, hn⟩ := List.nodup_cons.1 hn
    obtain ⟨hj₀, hj⟩ := List.forall_mem_cons.1 hj
    have hp := process_accounted (w := w) (env n) h hj₀.1 hj₀.2
    cases hs : (env n).storeErr with
    | some err => rw [processAll_of_err hs]; exact hp
    | none =>
      rw [processAll_of_ok hs]
      refine ih hp hn fun j hm => ⟨?_, (hj j hm).2⟩
      have hne : j.id ≠ job.id := fun he => hnj (he ▸ List.mem_map_of_mem hm)
      rw [(process_of_ok w job s hs).2.1, DB.find_settle_ne hne]
      exact (hj j hm).1

/-- **One call of `RunOnce` keeps the invariant.** -/
theorem runOnce_accounted (c : Call) (h : s.Accounted) : (w.runOnce c s).2.2.Accounted := by
  cases hc : w.claim c s.db with
  | error err => rw [runOnce_of_error hc]; exact h
  | ok res =>
    obtain ⟨jobs, db'⟩ := res
    obtain ⟨hn, hrun⟩ := claim_running hc
    rw [runOnce_of_ok hc]
    refine processAll_accounted ?_ hn hrun
    obtain ⟨limit, hc⟩ := claim_spec hc
    obtain ⟨-, -, hdb, -⟩ := DB.claimPendingJobs_spec hc
    intro id r hf
    rw [hdb] at hf
    split at hf
    · obtain ⟨r₀, hr₀, rfl⟩ := Option.map_eq_some_iff.1 hf
      exact ⟨(h id r₀ hr₀).count, fun hd => by simp [Job.start] at hd⟩
    · exact h id r hf

/-! ## Runs -/

/-- A call of `RunOnce` by one of the workers, as a step. -/
def Calls (s : State) (l : Worker × Call) (t : State) : Prop := t = (l.1.runOnce l.2 s).2.2

/-- The jobs are as the planner inserts them. -/
def Fresh (s : State) : Prop :=
  s.log = [] ∧ ∀ r ∈ s.db.jobs, r.retryCount = 0 ∧ r.status ≠ .deadLetter

/-- **A job is dead-lettered on account of its own attempts only.** -/
theorem deadLetter_own_attempts {s t : State} {ls : List (Worker × Call)} (hs : Fresh s)
    (h : Run Calls s ls t) :
    ∀ r ∈ t.db.jobs, r.status = .deadLetter → OwnAttempts r (attemptsAt t.log r.id) := by
  have h₀ : s.Accounted := by
    intro id r hr
    obtain ⟨hc, hd⟩ := hs.2 r (Table.find_eq_some.1 hr).1
    exact ⟨by rw [hc]; positivity, fun h => absurd h hd⟩
  have hstep : ∀ s l t, State.Accounted s → Calls s l t → State.Accounted t := by
    rintro s l _ hs rfl
    exact runOnce_accounted l.2 hs
  have ht : t.Accounted := h.inv hstep h₀
  intro r hr hd
  exact (ht r.id r (Table.find_of_mem hr)).dead hd

/-- A worker, and a call in which the executions fail, recoverably or not. -/
def failingCall (recoverable : Bool) : Worker × Call :=
  (⟨false, true, 2, some fun _ => 30 * second, ⟨0, 0, 0⟩⟩,
    { claimErr := none, claimNow := 0, locked := [], ret := .inOrder
      attempts := fun _ => ⟨none, 0, 0, none,
        some (newExecutionError .serverError recoverable none), 0, 0, none⟩ })

/-- Two jobs of one data type; the circuit opens at the first failure. -/
def twoJobs : State :=
  ⟨⟨⟨[.sample 1 "kline" 3 0, .sample 2 "kline" 1 0], by decide⟩, []⟩, .new ⟨1, 0, 1⟩, [], []⟩

theorem deadLetter_own_attempts_twoJobs :
    Fresh twoJobs ∧ ∃ t, Run Calls twoJobs [failingCall false] t ∧
      ∀ r ∈ t.db.jobs, r.status = .deadLetter → OwnAttempts r (attemptsAt t.log r.id) := by
  have hfresh : Fresh twoJobs := ⟨rfl, by decide⟩
  have hrun : Run Calls twoJobs [failingCall false] _ := .cons rfl (.nil _)
  exact ⟨hfresh, _, hrun, deadLetter_own_attempts hfresh hrun⟩

/-- The first job fails, and the second one, which the circuit breaker refuses,
    is given up without an execution. -/
theorem deadLetter_unexecuted :
    Fresh twoJobs ∧ ∃ t, Run Calls twoJobs [failingCall true] t ∧
      (t.db.jobs.find 2).map Job.status = some .deadLetter ∧
      ∀ o ∈ attemptsAt t.log 2, o.executes = false := by
  exact ⟨⟨rfl, by decide⟩, _, .cons rfl (.nil _), by decide +kernel, by decide +kernel⟩

end Worker

end Aggregator.Scheduler
