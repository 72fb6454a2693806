/-
  How often a job is executed.

  A worker gives a job up when `retry_count + 1` reaches `max_retry`;
  `RecoverInterrupted` increments the same counter without looking at
  `max_retry`, so a job whose worker dies is executed again however often that
  happens (`System.recovered_again`).  If recovery also resets only jobs that have
  retries left (`System.RetriesLeft`), a job is executed at most
  `max 1 max_retry` times, and its counter stays within that bound
  (`System.executions_bounded`).

  The invariant (`System.Bounded`) counts an execution against the counter as
  soon as the job is settled: a pending job has been executed at most
  `retry_count` times, a running one once more, unless its task is still to be
  executed.
-/
import Aggregator.Scheduler.Queue

namespace Aggregator.Scheduler.System

open Aggregator.Go

variable {σ E : Type} {exec : Job → E → σ → Option Error × σ} {s t : System σ}

/-- The number of executions of a job. -/
def executions (s : System σ) (id : ℤ) : ℕ := s.log.countP fun j => j.id = id

/-- The number of attempts a job is meant to have. -/
def allowed (r : Job) : ℤ := max 1 r.maxRetry

/-- A recovery resets only jobs with retries left. -/
def RetriesLeft (s : System σ) : Label E → Prop
  | .recover timeout clock _ => ∀ r ∈ s.db.jobs,
      DB.interrupted (clock - DB.recoveryTimeout timeout) r → r.retryCount + 1 < allowed r
  | _ => True

/-- The bound on the row of one job that has been executed `n` times; `fresh`
    says that its task is still to be executed. -/
def BoundedRow (r : Job) (n : ℕ) (fresh : Prop) : Prop :=
  match r.status with
  | .pending => n ≤ r.retryCount ∧ r.retryCount < allowed r
  | .running => n ≤ r.retryCount + 1 ∧ (fresh → n ≤ r.retryCount) ∧ r.retryCount < allowed r
  | _ => n ≤ allowed r ∧ r.retryCount ≤ allowed r

/-- The invariant. -/
def Bounded (s : System σ) : Prop :=
  ∀ id r, s.db.jobs.find id = some r →
    BoundedRow r (s.executions id) (∃ t ∈ s.tasks, t.job.id = id ∧ t.outcome = none)

theorem BoundedRow.le {r : Job} {n : ℕ} {fresh : Prop} (h : BoundedRow r n fresh) :
    n ≤ allowed r ∧ r.retryCount ≤ allowed r := by
  unfold BoundedRow at h
  split at h <;> omega

theorem BoundedRow.mono {r : Job} {n : ℕ} {fresh fresh' : Prop} (h : BoundedRow r n fresh)
    (hf : fresh' → fresh) : BoundedRow r n fresh' := by
  unfold BoundedRow at h ⊢
  split <;> simp_all

theorem BoundedRow.running {r : Job} {n : ℕ} {fresh : Prop} (h : BoundedRow r n fresh)
    (hr : r.status = .running) :
    n ≤ r.retryCount + 1 ∧ (fresh → n ≤ r.retryCount) ∧ r.retryCount < allowed r := by
  simpa only [BoundedRow, hr] using h

/-- Settling a running job keeps it within the bound. -/
theorem BoundedRow.settle {r r' : Job} {n : ℕ} {fresh fresh' : Prop} {nextRun now : ℤ} {o : Outcome}
    (h : BoundedRow r n fresh) (hr : r.status = .running) (hs : DB.Settles r nextRun now o r r') :
    BoundedRow r' n fresh' := by
  obtain ⟨h₁, -, h₂⟩ := h.running hr
  unfold allowed at h₂
  rcases hs with ⟨-, rfl⟩ | ⟨-, -, _, _, rfl⟩ | ⟨⟨-, -, hlt⟩, _, rfl⟩
  · simp only [BoundedRow, Job.succeed, allowed]; omega
  · simp only [BoundedRow, Job.fail, allowed]; omega
  · simp only [BoundedRow, Job.retry, allowed]; omega

theorem Bounded.closed (h : s.Bounded) (ho : s.Owned) {τ : Task} (hm : τ ∈ s.tasks)
    {nextRun now : ℤ} {outcome : Outcome} : (s.closed τ nextRun now outcome).Bounded := by
  intro id r hr
  by_cases hid : id = τ.job.id
  · subst hid
    obtain ⟨-, hf, hst⟩ := ho τ hm
    obtain ⟨r', hr', hset⟩ := DB.settle_cases nextRun now outcome hf
    obtain rfl := Option.some.inj (hr'.symm.trans hr)
    exact (h _ _ hf).settle hst hset
  · refine (h id r ((DB.find_settle_ne hid).symm.trans hr)).mono ?_
    rintro ⟨u, hu, h⟩
    exact ⟨u, (Table.mem_delete.1 hu).1, h⟩

theorem Bounded.claimed (h : s.Bounded) {worker : ℕ} {limit now : ℤ} {locked : List ℤ}
    {ret : Returning} {jobs : List Job} {db : DB}
    (hc : s.db.claimPendingJobs limit now locked ret = .ok (jobs, db)) :
    (s.claimed worker jobs db).Bounded := by
  obtain ⟨-, hj, hdb, -⟩ := DB.claimPendingJobs_spec hc
  intro id r hr
  simp only [System.claimed, hdb] at hr
  split at hr
  · rename_i hm
    obtain ⟨r₀, hr₀, rfl⟩ := Option.map_eq_some_iff.1 hr
    obtain ⟨j, hjm, rfl⟩ := List.mem_map.1 hm
    obtain ⟨r₁, hr₁, hp, -⟩ := hj j hjm
    obtain rfl := Option.some.inj (hr₀.symm.trans hr₁)
    have := h _ _ hr₀
    simp only [BoundedRow, hp] at this
    refine ⟨?_, fun _ => this.1, this.2⟩
    change (s.executions j.id : ℤ) ≤ r₀.retryCount + 1
    omega
  · rename_i hm
    refine (h id r hr).mono ?_
    rintro ⟨u, hu, rfl, ho⟩
    rcases Table.mem_insertAll hu with hu | hu
    · exact ⟨u, hu, rfl, ho⟩
    · obtain ⟨j, hjm, rfl⟩ := List.mem_map.1 hu
      exact absurd (List.mem_map_of_mem hjm) hm

theorem Bounded.ran (h : s.Bounded) (ho : s.Owned) {τ : Task} (hm : τ ∈ s.tasks)
    (hout : τ.outcome = none) (err : Option Error) (store : σ) : (s.ran τ err store).Bounded := by
  intro id r hr
  have hr : s.db.jobs.find id = some r := hr
  have hfresh : ∀ u, u ∈ (s.ran τ err store).tasks → u.outcome = none →
      u ∈ s.tasks ∧ u.key ≠ τ.key := by
    intro u hu hn
    replace hu : u ∈ s.tasks.update _ _ (Task.executed_key err) := hu
    obtain ⟨u', hu', rfl⟩ := Table.mem_update.1 hu
    split at hn
    · cases hn
    · rename_i hk; rw [if_neg hk]; exact ⟨hu', by simpa using hk⟩
  by_cases hid : τ.job.id = id
  · subst hid
    obtain ⟨-, hf, hst⟩ := ho τ hm
    obtain rfl := Option.some.inj (hf.symm.trans hr)
    obtain ⟨-, h₁, h₂⟩ := (h _ _ hr).running hst
    have hn := h₁ ⟨τ, hm, rfl, hout⟩
    have he : (s.ran τ err store).executions τ.job.id = s.executions τ.job.id + 1 := by
      simp [executions, System.ran, List.countP_append]
    simp only [BoundedRow, hst, he]
    refine ⟨by push_cast; omega, ?_, h₂⟩
    rintro ⟨u, hu, hid, hn⟩
    obtain ⟨hu, hne⟩ := hfresh u hu hn
    exact absurd (congrArg Task.key (ho.unique hu hm hid)) hne
  · have he : (s.ran τ err store).executions id = s.executions id := by
      simp [executions, System.ran, List.countP_append, hid]
    rw [he]
    refine (h id r hr).mono ?_
    rintro ⟨u, hu, hid, hn⟩
    exact ⟨u, (hfresh u hu hn).1, hid, hn⟩

theorem Bounded.recovered (h : s.Bounded) {timeout clock now : ℤ}
    (hl : ∀ r ∈ s.db.jobs, DB.interrupted (clock - DB.recoveryTimeout timeout) r →
      r.retryCount + 1 < allowed r) : (s.recovered timeout clock now).Bounded := by
  intro id r hr
  simp only [System.recovered, DB.find_recoverInterrupted] at hr
  obtain ⟨r₀, hr₀, rfl⟩ := Option.map_eq_some_iff.1 hr
  have h₀ := h id r₀ hr₀
  split
  · rename_i hi
    have hlt := hl r₀ (Table.find_eq_some.1 hr₀).1 hi
    simp only [DB.interrupted, Bool.and_eq_true, decide_eq_true_eq] at hi
    obtain ⟨h₁, -, -⟩ := h₀.running hi.1
    exact ⟨h₁, hlt⟩
  · exact h₀

/-- **A step keeps the bound.** -/
theorem Bounded.step {l : Label E} (h : s.Bounded) (ho : s.Owned) (hl : s.RetriesLeft l)
    (hs : Steps exec s l t) : t.Bounded := by
  cases hs with
  | claim hc => exact h.claimed hc
  | execute hm hout => exact h.ran ho hm hout _ _
  | reject hm _ => exact h.closed ho hm
  | finish hm _ => exact h.closed ho hm
  | crash hm =>
    intro id r hr
    refine (h id r hr).mono ?_
    rintro ⟨u, hu, hn⟩
    exact ⟨u, (Table.mem_delete.1 hu).1, hn⟩
  | recover => exact h.recovered hl

/-! ## Runs -/

/-- No worker is at work, and no job has been tried. -/
def Untried (s : System σ) : Prop :=
  s.Idle ∧ s.log = [] ∧ ∀ r ∈ s.db.jobs, r.retryCount = 0

theorem Untried.bounded (h : s.Untried) : s.Bounded := by
  intro id r hr
  have hc := h.2.2 r (Table.find_eq_some.1 hr).1
  have he : s.executions id = 0 := by simp [executions, h.2.1]
  rw [he]
  unfold BoundedRow allowed
  split <;> omega

/-- **A job is executed at most `max 1 max_retry` times**, in every run in which
    recovery resets only jobs without a live task and with retries left. -/
theorem executions_bounded {ls : List (Label E)} (hs : s.Untried)
    (h : Run (Restrict (fun s l t => s.step exec l = some t)
      fun s l => s.RecoversDead l ∧ s.RetriesLeft l) s ls t) :
    ∀ r ∈ t.db.jobs, t.executions r.id ≤ max 1 r.maxRetry ∧ r.retryCount ≤ max 1 r.maxRetry := by
  have hinv : t.Owned ∧ t.Bounded :=
    h.inv (I := fun s => s.Owned ∧ s.Bounded) (fun s l t hi hl =>
      ⟨hi.1.step hl.1.1 (steps_of_step hl.2), hi.2.step hi.1 hl.1.2 (steps_of_step hl.2)⟩)
      ⟨hs.1.owned, hs.bounded⟩
  intro r hr
  exact (hinv.2 r.id r (Table.find_of_mem hr)).le

instance (s : System σ) : (l : Label E) → Decidable (s.RetriesLeft l)
  | .recover timeout clock _ => inferInstanceAs (Decidable (∀ r ∈ s.db.jobs,
      DB.interrupted (clock - DB.recoveryTimeout timeout) r → r.retryCount + 1 < allowed r))
  | .claim .. | .execute .. | .reject .. | .finish .. | .crash .. => isTrue trivial

/-- A worker dies after executing the job, which is recovered, claimed and
    executed again. -/
def crashing : List (Label (Option Error)) :=
  [.claim 0 10 0 [] .inOrder, .execute 0 1 none, .crash 0 1,
    .recover 0 (16 * minute) (16 * minute), .claim 1 10 (16 * minute) [] .inOrder,
    .execute 1 1 none]

theorem executions_bounded_crashing :
    ∃ t : System Unit, (oneJob 3).Untried ∧ t.executions 1 = 2 ∧
      ∀ r ∈ t.db.jobs, t.executions r.id ≤ max 1 r.maxRetry ∧ r.retryCount ≤ max 1 r.maxRetry := by
  obtain ⟨t, ht, he⟩ := Option.map_eq_some_iff.1 (show
    (crashing.foldlM (fun (s : System Unit) l =>
      if s.RecoversDead l ∧ s.RetriesLeft l then s.step plain l else none) (oneJob 3)).map
        (·.executions 1) = some 2 by decide +kernel)
  have hs : (oneJob 3).Untried := ⟨rfl, rfl, by decide⟩
  exact ⟨t, hs, he, executions_bounded hs (Run.of_foldlM_restrict ht)⟩

/-- With `max_retry = 1`, the job is executed twice. -/
theorem recovered_again :
    (oneJob 1).Untried ∧ ∃ t, Run (Recovering plain) (oneJob 1) crashing t ∧
      ∃ r, t.db.jobs.find 1 = some r ∧ max 1 r.maxRetry < t.executions 1 := by
  obtain ⟨t, ht, he⟩ := Option.map_eq_some_iff.1 (show
    (crashing.foldlM (fun (s : System Unit) l =>
      if s.RecoversDead l then s.step plain l else none) (oneJob 1)).map
        (fun t => ((t.db.jobs.find 1).map Job.maxRetry, t.executions 1)) = some (some 1, 2) by
      decide +kernel)
  obtain ⟨hr, he⟩ := Prod.mk.inj he
  obtain ⟨r, hr, hm⟩ := Option.map_eq_some_iff.1 hr
  exact ⟨⟨rfl, rfl, by decide⟩, t, Run.of_foldlM_restrict ht, r, hr, by rw [hm, he]; decide⟩

end Aggregator.Scheduler.System
