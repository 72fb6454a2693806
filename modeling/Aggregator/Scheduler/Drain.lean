/-
  The queue drains.

  Once no jobs are added any more, every job that is pending or running ends as
  succeeded or dead-lettered, however claims, executions, outcomes and recoveries
  are interleaved and whatever the executions return (`System.drains`).  The
  assumptions are those of a deployment that is kept running (`System.Fair`):
  workers keep claiming, a claimed job is not kept in memory for ever, recovery is
  run again and again, and workers stop dying at some time.

  The measure (`System.potential`) prices an attempt at two, of which a claim pays
  one.  A job whose worker has died is priced by its state after recovery, since
  `RecoverInterrupted` gives it another attempt even where `max_retry` is used up.
-/
import Aggregator.Lib.Trace
import Aggregator.Scheduler.Queue
import Mathlib.Algebra.Order.BigOperators.Group.List

namespace Aggregator.Scheduler

open Aggregator.Go

namespace Job

/-- The attempts a worker still gives a job. -/
def remaining (r : Job) : ℕ := (max 1 (r.maxRetry - r.retryCount)).toNat

/-- What is still to be done for a job; `live` says that a worker has it. -/
def cost (live : Bool) (r : Job) : ℕ :=
  match r.status with
  | .pending => 2 * r.remaining
  | .running =>
    if live then 2 * r.remaining - 1
    else 2 * ({ r with retryCount := r.retryCount + 1 } : Job).remaining + 1
  | _ => 0

/-- A job that is not done with. -/
def Open (r : Job) : Prop := r.status = .pending ∨ r.status = .running

theorem remaining_pos (r : Job) : 0 < r.remaining := by
  unfold remaining
  omega

theorem cost_live_le (r : Job) : r.cost true ≤ r.cost false := by
  unfold cost
  split
  · exact le_rfl
  · simp only [↓reduceIte, Bool.false_eq_true, remaining]
    omega
  · exact le_rfl

theorem cost_start {r : Job} (hr : r.status = .pending) (now : ℤ) (live : Bool) :
    (r.start now).cost true < r.cost live := by
  have := r.remaining_pos
  simp only [cost, start, hr, ↓reduceIte]
  change 2 * r.remaining - 1 < 2 * r.remaining
  omega

theorem cost_recover {r : Job} (hr : r.status = .running) (metadata : Json) (now : ℤ)
    (live : Bool) : (r.recover metadata now).cost live < r.cost false := by
  simp only [cost, recover, hr, Bool.false_eq_true, ↓reduceIte, remaining]
  omega

theorem cost_settles {r r' : Job} (hr : r.status = .running) {nextRun now : ℤ} {o : Outcome}
    (hs : DB.Settles r nextRun now o r r') (live : Bool) : r'.cost live < r.cost true := by
  have := r.remaining_pos
  rcases hs with ⟨-, rfl⟩ | ⟨-, -, _, _, rfl⟩ | ⟨⟨-, -, hlt⟩, _, rfl⟩
  · simp only [cost, succeed, hr, ↓reduceIte]; omega
  · simp only [cost, fail, hr, ↓reduceIte]; omega
  · simp only [cost, retry, hr, ↓reduceIte, remaining]; omega

end Job

namespace System
variable {σ E : Type} {exec : Job → E → σ → Option Error × σ} {s t : System σ}

/-- A worker has the job. -/
def live (s : System σ) (id : ℤ) : Bool := s.tasks.rows.any fun u => u.job.id = id

theorem live_iff {id : ℤ} : s.live id = true ↔ ∃ u ∈ s.tasks, u.job.id = id := by
  simp only [live, List.any_eq_true, decide_eq_true_eq, Table.mem_rows]

/-- What is still to be done for the job `id`. -/
def cost (s : System σ) (id : ℤ) : ℕ := (s.db.jobs.find id).elim 0 (Job.cost (s.live id))

/-- What is still to be done for the jobs `ids`. -/
def potential (ids : List ℤ) (s : System σ) : ℕ := (ids.map s.cost).sum

/-! ## What a step does to a row -/

/-- The ways a row changes. -/
inductive Moves (s t : System σ) (id : ℤ) (r : Job) : Job → Prop
  | stays : (s.live id → t.live id) → Moves s t id r r
  | starts {now} : r.status = .pending → t.live id → Moves s t id r (r.start now)
  | settles {nextRun now o r'} : r.status = .running → s.live id →
      DB.Settles r nextRun now o r r' → Moves s t id r r'
  | recovers {metadata now} : r.status = .running → ¬ s.live id →
      Moves s t id r (r.recover metadata now)

/-- A task other than that of the job stays when the job is settled. -/
theorem live_dropped {τ : Task} {id : ℤ} (hid : id ≠ τ.job.id) (h : s.live id) :
    (s.dropped τ).live id := by
  obtain ⟨u, hu, rfl⟩ := live_iff.1 h
  refine live_iff.2 ⟨u, Table.mem_delete.2 ⟨hu, ?_⟩, rfl⟩
  simp only [decide_eq_false_iff_not]
  intro hk
  exact hid (congrArg Prod.snd hk)

theorem closed_moves (ho : s.Owned) {τ : Task} (hm : τ ∈ s.tasks) {nextRun now : ℤ}
    {outcome : Outcome} {id : ℤ} {r : Job} (hr : s.db.jobs.find id = some r) :
    ∃ r', (s.closed τ nextRun now outcome).db.jobs.find id = some r' ∧
      Moves s (s.closed τ nextRun now outcome) id r r' := by
  by_cases hid : id = τ.job.id
  · subst hid
    obtain ⟨-, hf, hst⟩ := ho τ hm
    obtain ⟨r', hr', hs⟩ := DB.settle_cases nextRun now outcome hf
    obtain rfl := Option.some.inj (hf.symm.trans hr)
    exact ⟨r', hr', .settles hst (live_iff.2 ⟨τ, hm, rfl⟩) hs⟩
  · exact ⟨r, (DB.find_settle_ne hid).trans hr, .stays fun h => live_dropped hid h⟩

/-- **What a step does to a row**, if it is not the death of a worker. -/
theorem step_moves {l : Label E} (ho : s.Owned) (hd : s.RecoversDead l)
    (hcrash : ∀ c i, l ≠ .crash c i) (hs : Steps exec s l t) {id : ℤ} {r : Job}
    (hr : s.db.jobs.find id = some r) : ∃ r', t.db.jobs.find id = some r' ∧ Moves s t id r r' := by
  cases hs with
  | claim hc =>
    obtain ⟨-, hj, hdb, -⟩ := DB.claimPendingJobs_spec hc
    simp only [claimed, hdb]
    split
    · rename_i hm
      obtain ⟨j, hjm, rfl⟩ := List.mem_map.1 hm
      obtain ⟨r₀, hr₀, hp, -⟩ := hj j hjm
      obtain rfl := Option.some.inj (hr.symm.trans hr₀)
      obtain ⟨u, hu, hk⟩ := Table.exists_insertAll (t := s.tasks) (List.mem_map_of_mem hjm)
      refine ⟨_, by rw [hr]; rfl, .starts hp (live_iff.2 ⟨u, hu, ?_⟩)⟩
      exact congrArg Prod.snd hk
    · refine ⟨r, hr, .stays fun h => ?_⟩
      obtain ⟨u, hu, hid⟩ := live_iff.1 h
      exact live_iff.2 ⟨u, Table.mem_insertAll_of_mem _ hu, hid⟩
  | execute hm hout =>
    refine ⟨r, hr, .stays fun h => ?_⟩
    obtain ⟨u, hu, hid⟩ := live_iff.1 h
    refine live_iff.2 ?_
    change ∃ v ∈ s.tasks.update _ _ (Task.executed_key _), v.job.id = id
    refine ⟨_, Table.mem_update.2 ⟨u, hu, rfl⟩, ?_⟩
    split <;> exact hid
  | reject hm hout => exact closed_moves ho hm hr
  | finish hm hout => exact closed_moves ho hm hr
  | crash hm => exact absurd rfl (hcrash _ _)
  | recover =>
    simp only [recovered, DB.find_recoverInterrupted, hr, Option.map_some]
    refine ⟨_, rfl, ?_⟩
    split
    · rename_i hi
      have hrun : r.status = .running := by
        simp only [DB.interrupted, Bool.and_eq_true, decide_eq_true_eq] at hi
        exact hi.1
      refine .recovers hrun fun h => ?_
      obtain ⟨u, hu, hid⟩ := live_iff.1 h
      obtain ⟨hmem, hk⟩ := Table.find_eq_some.1 hr
      exact hd r hmem hi u hu (hid.trans hk.symm)
    · exact .stays fun h => h

/-! ## The measure -/

theorem Moves.cost_lt {id : ℤ} {r r' : Job} (h : Moves s t id r r') (hne : r' ≠ r) :
    r'.cost (t.live id) < r.cost (s.live id) := by
  cases h with
  | stays _ => exact absurd rfl hne
  | starts hp ht => rw [ht]; exact Job.cost_start hp _ _
  | settles hrun hl hs => rw [hl]; exact Job.cost_settles hrun hs _
  | recovers hrun hl => rw [Bool.eq_false_iff.2 hl]; exact Job.cost_recover hrun _ _ _

theorem Moves.cost_le {id : ℤ} {r r' : Job} (h : Moves s t id r r') :
    r'.cost (t.live id) ≤ r.cost (s.live id) := by
  cases h with
  | stays hl =>
    cases hs : s.live id with
    | true => rw [hl hs]
    | false =>
      cases t.live id with
      | true => exact r.cost_live_le
      | false => exact le_rfl
  | starts hp ht => rw [ht]; exact (Job.cost_start hp _ _).le
  | settles hrun hl hs => rw [hl]; exact (Job.cost_settles hrun hs _).le
  | recovers hrun hl => rw [Bool.eq_false_iff.2 hl]; exact (Job.cost_recover hrun _ _ _).le

/-- The rows of `t` are those of `s`, moved. -/
def Moved (s t : System σ) : Prop :=
  ∀ id, (s.db.jobs.find id = none ∧ t.db.jobs.find id = none) ∨
    ∃ r r', s.db.jobs.find id = some r ∧ t.db.jobs.find id = some r' ∧ Moves s t id r r'

theorem Moved.cost_le (h : Moved s t) (id : ℤ) : t.cost id ≤ s.cost id := by
  unfold cost
  rcases h id with ⟨hs, ht⟩ | ⟨r, r', hs, ht, hm⟩
  · rw [hs, ht]; exact le_rfl
  · rw [hs, ht]; exact hm.cost_le

theorem Moved.cost_lt (h : Moved s t) {id : ℤ} (hne : t.db.jobs.find id ≠ s.db.jobs.find id) :
    t.cost id < s.cost id := by
  unfold cost
  rcases h id with ⟨hs, ht⟩ | ⟨r, r', hs, ht, hm⟩
  · exact absurd (ht.trans hs.symm) hne
  · rw [hs, ht] at hne ⊢
    exact hm.cost_lt fun he => hne (congrArg some he)

theorem Moved.potential_le (h : Moved s t) (ids : List ℤ) : potential ids t ≤ potential ids s :=
  List.sum_le_sum fun id _ => h.cost_le id

/-- A step that changes a row lowers the measure. -/
theorem Moved.potential_lt (h : Moved s t) {ids : List ℤ} {id : ℤ} (hid : id ∈ ids)
    (hne : t.db.jobs.find id ≠ s.db.jobs.find id) : potential ids t < potential ids s :=
  List.sum_lt_sum _ _ (fun id _ => h.cost_le id) ⟨id, hid, h.cost_lt hne⟩

/-- No step adds a job. -/
theorem step_none {l : Label E} (hs : Steps exec s l t) {id : ℤ}
    (h : s.db.jobs.find id = none) : t.db.jobs.find id = none := by
  have hclosed : ∀ {τ : Task} {nextRun now : ℤ} {outcome : Outcome},
      (s.closed τ nextRun now outcome).db.jobs.find id = none := by
    intro τ nextRun now outcome
    obtain ⟨f, -, hf⟩ := DB.settle_spec s.db τ.job nextRun now outcome
    change (s.db.settle τ.job nextRun now outcome).jobs.find id = none
    rw [hf, h]
    exact ite_self _
  cases hs with
  | claim hc =>
    obtain ⟨-, -, hdb, -⟩ := DB.claimPendingJobs_spec hc
    simp only [claimed, hdb, h, Option.map_none, ite_self]
  | execute hm hout => exact h
  | reject hm hout => exact hclosed
  | finish hm hout => exact hclosed
  | crash hm => exact h
  | recover => simp [recovered, h]

/-- **A step moves rows**, if it is not the death of a worker. -/
theorem moved_of_step {l : Label E} (ho : s.Owned) (hcrash : ∀ c i, l ≠ .crash c i)
    (hs : Recovering exec s l t) : Moved s t := by
  intro id
  cases hr : s.db.jobs.find id with
  | none => exact .inl ⟨rfl, step_none (steps_of_step hs.2) hr⟩
  | some r =>
    obtain ⟨r', hr', hm⟩ := step_moves ho hs.1 hcrash (steps_of_step hs.2) hr
    exact .inr ⟨r, r', rfl, hr', hm⟩

/-! ## Fair runs -/

/-- A running row has a start time. -/
def Started (s : System σ) : Prop :=
  ∀ id r, s.db.jobs.find id = some r → r.status = .running → r.startedAt.isSome

/-- The step writes the outcome of a task, or its worker dies. -/
def Ends (claim : ℕ) (id : ℤ) : Label E → Prop
  | .reject c i .. | .finish c i .. | .crash c i => c = claim ∧ i = id
  | .claim .. | .execute .. | .recover .. => False

/-- A deployment that is kept running.  Claims and recoveries come again and
    again, at times that exceed every bound; every task ends; and from some time
    on no worker dies. -/
structure Fair (ρ : Trace (Recovering exec)) : Prop where
  claims : ∀ n T, ∃ m ≥ n, ∃ worker limit now ret,
    ρ.lab m = .claim worker limit now [] ret ∧ T ≤ now
  tasks : ∀ n, ∀ u ∈ (ρ.st n).tasks, ∃ m ≥ n, Ends u.claim u.job.id (ρ.lab m)
  recoveries : ∀ n T, ∃ m ≥ n, ∃ timeout clock now,
    ρ.lab m = .recover timeout clock now ∧ T < clock - DB.recoveryTimeout timeout
  crashes : ∃ n, ∀ m ≥ n, ∀ c i, ρ.lab m ≠ .crash c i

theorem Moves.started {id : ℤ} {r r' : Job} (h : Moves s t id r r')
    (hr : r.status = .running → r.startedAt.isSome) (hr' : r'.status = .running) :
    r'.startedAt.isSome := by
  cases h with
  | stays _ => exact hr hr'
  | starts hp ht => rfl
  | settles hrun hl hs =>
    rcases hs with ⟨-, rfl⟩ | ⟨-, -, _, _, rfl⟩ | ⟨-, _, rfl⟩ <;> cases hr'
  | recovers hrun hl => cases hr'

theorem Moves.open_or_terminal {id : ℤ} {r r' : Job} (h : Moves s t id r r')
    (hr : r.Open ∨ r.status.Terminal) : r'.Open ∨ r'.status.Terminal := by
  cases h with
  | stays _ => exact hr
  | starts hp ht => exact .inl (.inr rfl)
  | settles hrun hl hs =>
    rcases hs with ⟨-, rfl⟩ | ⟨-, -, _, _, rfl⟩ | ⟨-, _, rfl⟩
    exacts [.inr (.inl rfl), .inr (.inr rfl), .inl (.inl rfl)]
  | recovers hrun hl => exact .inl (.inl rfl)

/-- A row that is done with does not move. -/
theorem Moves.eq_of_not_open {id : ℤ} {r r' : Job} (h : Moves s t id r r') (hr : ¬ r.Open) :
    r' = r := by
  cases h with
  | stays _ => rfl
  | starts hp ht => exact absurd (.inl hp) hr
  | settles hrun hl hs => exact absurd (.inr hrun) hr
  | recovers hrun hl => exact absurd (.inr hrun) hr

/-- A worker that dies leaves the rows alone. -/
theorem moved_or_crashed {l : Label E} (ho : s.Owned) (hs : Recovering exec s l t) :
    Moved s t ∨ t.db = s.db := by
  by_cases hcrash : ∃ c i, l = .crash c i
  · obtain ⟨c, i, rfl⟩ := hcrash
    refine .inr ?_
    cases steps_of_step hs.2 with
    | crash hm => rfl
  · exact .inl (moved_of_step ho (fun c i he => hcrash ⟨c, i, he⟩) hs)

/-- What holds at every time of a run from a state whose tasks own their jobs. -/
structure Good (s₀ s : System σ) : Prop where
  owned : s.Owned
  started : s.Started
  none : ∀ id, s₀.db.jobs.find id = none → s.db.jobs.find id = none
  some : ∀ id r, s₀.db.jobs.find id = some r → r.Open →
    ∃ r', s.db.jobs.find id = some r' ∧ (r'.Open ∨ r'.status.Terminal)

theorem Good.step {s₀ : System σ} {l : Label E} (h : Good s₀ s) (hs : Recovering exec s l t) :
    Good s₀ t := by
  have ho : t.Owned := h.owned.step hs.1 (steps_of_step hs.2)
  rcases moved_or_crashed h.owned hs with hm | hdb
  · refine ⟨ho, fun id r' hr' hrun => ?_, fun id hid => ?_, fun id r hr hopen => ?_⟩
    · rcases hm id with ⟨-, ht⟩ | ⟨r, r'', hr, ht, hmove⟩
      · cases ht.symm.trans hr'
      · obtain rfl := Option.some.inj (ht.symm.trans hr')
        exact hmove.started (h.started id r hr) hrun
    · exact step_none (steps_of_step hs.2) (h.none id hid)
    · obtain ⟨r₁, hr₁, hst⟩ := h.some id r hr hopen
      rcases hm id with ⟨hn, -⟩ | ⟨r₂, r', hr₂, ht, hmove⟩
      · cases hn.symm.trans hr₁
      · obtain rfl := Option.some.inj (hr₂.symm.trans hr₁)
        exact ⟨r', ht, hmove.open_or_terminal hst⟩
  · exact ⟨ho, by rw [Started, hdb]; exact h.started, by rw [hdb]; exact h.none,
      by rw [hdb]; exact h.some⟩

/-! ## Progress -/

/-- A claim that finds a job due returns some. -/
theorem claim_ne_nil {db db' : DB} {limit now : ℤ} {ret : Returning} {jobs : List Job}
    (h : db.claimPendingJobs limit now [] ret = .ok (jobs, db')) {r : Job} (hr : r ∈ db.jobs)
    (hp : r.status = .pending) (hdue : r.scheduledAt ≤ now) : jobs ≠ [] := by
  unfold DB.claimPendingJobs at h
  split at h
  · cases h
  rename_i hlimit
  obtain ⟨hjobs, -⟩ := Prod.mk.inj (Except.ok.inj h)
  have hmem : r ∈ (db.jobs.rows.filter (claimable now [])).insertionSort (claimOrder · ·) := by
    rw [List.mem_insertionSort, List.mem_filter]
    exact ⟨hr, by simp [claimable, hp, hdue]⟩
  have hpos : 0 < (selectPending db.jobs.rows limit now []).length := by
    rw [selectPending, List.length_take]
    have := List.length_pos_of_mem hmem
    omega
  intro hnil
  have hlen := (hjobs ▸ ret.perm _ : jobs.Perm _).length_eq
  rw [hnil, List.length_map, List.length_nil] at hlen
  omega

/-- A claim that finds a job due starts a row. -/
theorem claim_changes {worker : ℕ} {limit now : ℤ} {ret : Returning} {id : ℤ} {r : Job}
    (hs : Recovering exec s (.claim worker limit now [] ret) t) (hr : s.db.jobs.find id = some r)
    (hp : r.status = .pending) (hdue : r.scheduledAt ≤ now) :
    t.db.jobs.find ≠ s.db.jobs.find := by
  cases steps_of_step hs.2 with
  | claim hc =>
    intro heq
    obtain ⟨-, hj, hdb, -⟩ := DB.claimPendingJobs_spec hc
    obtain ⟨j, hjm⟩ := List.exists_mem_of_ne_nil _
      (claim_ne_nil hc (Table.find_eq_some.1 hr).1 hp hdue)
    obtain ⟨r₀, hr₀, hp₀, -⟩ := hj j hjm
    have hrow := congrFun heq j.id
    simp only [claimed, hdb, List.mem_map_of_mem hjm, ↓reduceIte, hr₀, Option.map_some,
      Option.some.injEq] at hrow
    have hstatus := congrArg Job.status hrow
    rw [hp₀] at hstatus
    cases hstatus

/-- A task that ends changes its row. -/
theorem ends_changes {l : Label E} {u : Task} (ho : s.Owned) (hcrash : ∀ c i, l ≠ .crash c i)
    (hs : Recovering exec s l t) (hl : Ends u.claim u.job.id l) :
    t.db.jobs.find ≠ s.db.jobs.find := by
  have hclosed : ∀ {τ : Task} {nextRun now : ℤ} {outcome : Outcome}, τ ∈ s.tasks →
      (s.closed τ nextRun now outcome).db.jobs.find ≠ s.db.jobs.find := by
    intro τ nextRun now outcome hm heq
    obtain ⟨-, hf, hrun⟩ := ho τ hm
    obtain ⟨r', hr', hset⟩ := DB.settle_cases nextRun now outcome hf
    have hrow : some r' = some τ.job := hr'.symm.trans ((congrFun heq _).trans hf)
    rw [Option.some.inj hrow] at hset
    -- the row would still be running, with a status a settled row does not have
    exact (Job.cost_settles hrun hset true).ne rfl
  cases steps_of_step hs.2 with
  | claim _ => exact False.elim hl
  | execute _ _ => exact False.elim hl
  | reject hm _ => exact hclosed hm
  | finish hm _ => exact hclosed hm
  | crash _ => exact absurd rfl (hcrash _ _)
  | recover => exact False.elim hl

/-- A recovery changes the rows it finds interrupted. -/
theorem recover_changes {timeout clock now : ℤ} {id : ℤ} {r : Job} {started : ℤ}
    (hs : Recovering exec s (.recover timeout clock now) t) (hr : s.db.jobs.find id = some r)
    (hrun : r.status = .running) (hst : r.startedAt = some started)
    (hlt : started < clock - DB.recoveryTimeout timeout) :
    t.db.jobs.find ≠ s.db.jobs.find := by
  cases steps_of_step hs.2 with
  | recover =>
    intro heq
    have hi : DB.interrupted (clock - DB.recoveryTimeout timeout) r := by
      simp [DB.interrupted, hrun, hst, hlt]
    have hrow := congrFun heq id
    simp only [recovered, DB.find_recoverInterrupted, hr, Option.map_some, hi, ↓reduceIte,
      Option.some.injEq] at hrow
    have hstatus := congrArg Job.status hrow
    rw [hrun] at hstatus
    cases hstatus

/-- **Progress**: as long as a job is open, some later step changes a row. -/
theorem Fair.changes {ρ : Trace (Recovering exec)} (hfair : Fair ρ)
    (hgood : ∀ n, Good (ρ.st 0) (ρ.st n)) {n : ℕ} (hcrash : ∀ m ≥ n, ∀ c i, ρ.lab m ≠ .crash c i)
    {id : ℤ} {r : Job} (hr : (ρ.st n).db.jobs.find id = some r) (hopen : r.Open) :
    ∃ m ≥ n, (ρ.st (m + 1)).db.jobs.find ≠ (ρ.st m).db.jobs.find := by
  by_contra hnone
  push Not at hnone
  -- the rows stay as they are, so the fair step still finds the job
  have hconst : ∀ m ≥ n, (ρ.st m).db.jobs.find id = some r := by
    intro m hm
    rw [ρ.const (f := fun s => s.db.jobs.find) hnone hm]
    exact hr
  rcases hopen with hp | hrun
  · obtain ⟨m, hm, worker, limit, now, ret, hlab, hdue⟩ := hfair.claims n r.scheduledAt
    have hnext := ρ.next m
    rw [hlab] at hnext
    exact claim_changes hnext (hconst m hm) hp hdue (hnone m hm)
  · cases hlive : (ρ.st n).live id with
    | true =>
      obtain ⟨u, hu, -⟩ := live_iff.1 hlive
      obtain ⟨m, hm, hl⟩ := hfair.tasks n u hu
      exact ends_changes (hgood m).owned (hcrash m hm) (ρ.next m) hl (hnone m hm)
    | false =>
      obtain ⟨started, hst⟩ := Option.isSome_iff_exists.1 ((hgood n).started id r hr hrun)
      obtain ⟨m, hm, timeout, clock, now, hlab, hlt⟩ := hfair.recoveries n started
      have hnext := ρ.next m
      rw [hlab] at hnext
      exact recover_changes hnext (hconst m hm) hrun hst hlt (hnone m hm)

/-- No job is open. -/
def Drained (s : System σ) : Prop := ∀ id r, s.db.jobs.find id = some r → ¬ r.Open

theorem Drained.idle (h : s.Drained) (ho : s.Owned) : s.Idle := by
  refine List.eq_nil_iff_forall_not_mem.2 fun u hu => ?_
  obtain ⟨-, hf, hrun⟩ := ho u hu
  exact h _ _ hf (.inr hrun)

/-- A drained queue stays as it is. -/
theorem Drained.find_eq (h : s.Drained) (hm : Moved s t) : t.db.jobs.find = s.db.jobs.find := by
  funext id
  rcases hm id with ⟨hs, ht⟩ | ⟨r, r', hs, ht, hmove⟩
  · rw [hs, ht]
  · rw [hs, ht, hmove.eq_of_not_open (h id r hs)]

/-- **The queue drains.**  In every fair run in which recovery resets only jobs
    without a live task, all workers are idle from some time on, and every job that
    was open has ended, for good, as succeeded or dead-lettered. -/
theorem drains (ρ : Trace (Recovering exec)) (hfair : Fair ρ) (ho : (ρ.st 0).Owned)
    (hst : (ρ.st 0).Started) :
    ∃ N, (∀ n ≥ N, (ρ.st n).Idle) ∧
      ∀ id r, (ρ.st 0).db.jobs.find id = some r → r.Open →
        ∃ r', r'.status.Terminal ∧ ∀ n ≥ N, (ρ.st n).db.jobs.find id = some r' := by
  have hgood : ∀ n, Good (ρ.st 0) (ρ.st n) :=
    ρ.inv (fun s l t h hs => h.step hs)
      ⟨ho, hst, fun _ h => h, fun id r hr hopen => ⟨r, hr, .inl hopen⟩⟩
  obtain ⟨n₀, hcrash⟩ := hfair.crashes
  have hmoved : ∀ n ≥ n₀, Moved (ρ.st n) (ρ.st (n + 1)) := fun n hn =>
    moved_of_step (hgood n).owned (hcrash n hn) (ρ.next n)
  let ids : List ℤ := (ρ.st 0).db.jobs.rows.map Job.id
  have hids : ∀ n id r, (ρ.st n).db.jobs.find id = some r → id ∈ ids := by
    intro n id r hr
    cases h₀ : (ρ.st 0).db.jobs.find id with
    | none => cases ((hgood n).none id h₀).symm.trans hr
    | some r₀ =>
      obtain ⟨hmem, rfl⟩ := Table.find_eq_some.1 h₀
      exact List.mem_map_of_mem hmem
  obtain ⟨N, hN, hdone⟩ : ∃ N ≥ n₀, (ρ.st N).Drained := by
    refine ρ.eventually (μ := potential ids) (fun n hn => (hmoved n hn).potential_le ids) ?_
    intro n hn hopen
    unfold Drained at hopen
    push Not at hopen
    obtain ⟨id, r, hr, hopen⟩ := hopen
    obtain ⟨m, hm, hne⟩ :=
      hfair.changes hgood (fun m hm => hcrash m (hn.trans hm)) hr hopen
    obtain ⟨i, hi⟩ := Function.ne_iff.1 hne
    have hmem : i ∈ ids := by
      rcases hmoved m (hn.trans hm) i with ⟨hs, ht⟩ | ⟨r₁, r₂, hs, -⟩
      · exact absurd (ht.trans hs.symm) hi
      · exact hids m i r₁ hs
    exact ⟨m, hm, (hmoved m (hn.trans hm)).potential_lt hmem hi⟩
  have hfind : ∀ n ≥ N, (ρ.st n).Drained ∧ (ρ.st n).db.jobs.find = (ρ.st N).db.jobs.find := by
    intro n hn
    refine ρ.stable (P := fun s => s.Drained ∧ s.db.jobs.find = (ρ.st N).db.jobs.find)
      (fun m hm h => ?_) ⟨hdone, rfl⟩ hn
    have heq := h.1.find_eq (hmoved m (hN.trans hm))
    exact ⟨by rw [Drained, heq]; exact h.1, heq.trans h.2⟩
  refine ⟨N, fun n hn => (hfind n hn).1.idle (hgood n).owned, fun id r hr hopen => ?_⟩
  obtain ⟨r', hr', hend⟩ := (hgood N).some id r hr hopen
  refine ⟨r', hend.resolve_left (hdone id r' hr'), fun n hn => ?_⟩
  rw [(hfind n hn).2, hr']

/-! ## A fair run -/

/-- One job is claimed, executed and succeeds; then claims and recoveries
    alternate. -/
def alternating : ℕ → Label (Option Error)
  | 0 => .claim 0 10 0 [] .inOrder
  | 1 => .execute 0 1 none
  | 2 => .finish 0 1 0 1
  | n + 3 => if n % 2 = 0 then .claim 0 10 n [] .inOrder else .recover 0 (n + 16 * minute) n

def alternatingState : ℕ → System Unit
  | 0 => oneJob 3
  | n + 1 => ((alternatingState n).step plain (alternating n)).getD (alternatingState n)

/-- Nobody is at work, and all jobs have succeeded. -/
def AllDone (s : System σ) : Prop := s.Idle ∧ ∀ r ∈ s.db.jobs, r.status = .succeeded

theorem AllDone.drained (h : s.AllDone) : s.Drained := by
  rintro id r hr (hp | hrun)
  · have := h.2 r (Table.find_eq_some.1 hr).1
    rw [hp] at this
    cases this
  · have := h.2 r (Table.find_eq_some.1 hr).1
    rw [hrun] at this
    cases this

theorem AllDone.of_find (h : s.AllDone) (hi : t.Idle) (heq : t.db.jobs.find = s.db.jobs.find) :
    t.AllDone := by
  refine ⟨hi, fun r hr => h.2 r ?_⟩
  have hfind := Table.find_of_mem hr
  rw [heq] at hfind
  exact (Table.find_eq_some.1 hfind).1

/-- From then on claims and recoveries change nothing. -/
theorem AllDone.next {s : System Unit} (h : s.AllDone) (n : ℕ) :
    ∃ t, Recovering plain s (alternating (n + 3)) t ∧ t.AllDone := by
  have ho : s.Owned := h.1.owned
  by_cases hn : n % 2 = 0
  · obtain ⟨t, ht⟩ : ∃ t, Recovering plain s (.claim 0 10 n [] .inOrder) t := by
      obtain ⟨⟨jobs, db⟩, hc⟩ : ∃ x, s.db.claimPendingJobs 10 n [] .inOrder = .ok x :=
        ⟨_, if_neg (by decide)⟩
      exact ⟨s.claimed 0 jobs db, trivial, by simp only [step, hc]⟩
    have hlab : alternating (n + 3) = .claim 0 10 n [] .inOrder := if_pos hn
    rw [hlab]
    have heq := h.drained.find_eq (moved_of_step ho (fun _ _ he => by cases he) ht)
    have hdrained : t.Drained := by rw [Drained, heq]; exact h.drained
    exact ⟨t, ht, h.of_find (hdrained.idle (ho.step ht.1 (steps_of_step ht.2))) heq⟩
  · have ht : Recovering plain s (.recover 0 (n + 16 * minute) n)
        (s.recovered 0 (n + 16 * minute) n) := by
      refine ⟨fun r _ _ u hu => ?_, rfl⟩
      rw [← Table.mem_rows, h.1] at hu
      cases hu
    have hlab : alternating (n + 3) = .recover 0 (n + 16 * minute) n := if_neg hn
    rw [hlab]
    exact ⟨_, ht, h.of_find h.1
      (h.drained.find_eq (moved_of_step ho (fun _ _ he => by cases he) ht))⟩

theorem alternatingState_done (n : ℕ) : (alternatingState (n + 3)).AllDone := by
  induction n with
  | zero =>
    have hnil : (alternatingState 3).tasks.rows.isEmpty := by decide +kernel
    exact ⟨List.isEmpty_iff.1 hnil, by decide +kernel⟩
  | succ n ih =>
    obtain ⟨t, ht, hdone⟩ := ih.next n
    have heq : alternatingState (n + 1 + 3) = t := by
      change ((alternatingState (n + 3)).step plain (alternating (n + 3))).getD _ = t
      rw [ht.2]
      rfl
    rw [heq]
    exact hdone

theorem alternating_next (n : ℕ) :
    Recovering plain (alternatingState n) (alternating n) (alternatingState (n + 1)) := by
  have hsome : ((alternatingState n).step plain (alternating n)).isSome ∧
      (alternatingState n).RecoversDead (alternating n) := by
    match n with
    | 0 => exact ⟨by decide +kernel, trivial⟩
    | 1 => exact ⟨by decide +kernel, trivial⟩
    | 2 => exact ⟨by decide +kernel, trivial⟩
    | n + 3 =>
      obtain ⟨t, ht, -⟩ := (alternatingState_done n).next n
      exact ⟨by rw [ht.2]; rfl, ht.1⟩
  obtain ⟨t, ht⟩ := Option.isSome_iff_exists.1 hsome.1
  refine ⟨hsome.2, ht.trans ?_⟩
  rw [alternatingState, ht]
  rfl

def alternatingTrace : Trace (Recovering plain) := ⟨alternatingState, alternating, alternating_next⟩

theorem alternatingTrace_fair : Fair alternatingTrace where
  claims n T := by
    refine ⟨2 * (n + T.toNat) + 3, by omega, 0, 10, (2 * (n + T.toNat) : ℕ), .inOrder, ?_, ?_⟩
    · exact if_pos (by omega)
    · omega
  tasks n u hu := by
    have hfirst : ∀ k < 3, ∀ v ∈ (alternatingState k).tasks, v.claim = 0 ∧ v.job.id = 1 := by
      decide +kernel
    rcases Nat.lt_or_ge n 3 with hn | hn
    · obtain ⟨hclaim, hid⟩ := hfirst n hn u hu
      exact ⟨2, by omega, hclaim.symm, hid.symm⟩
    · obtain ⟨k, rfl⟩ := Nat.exists_eq_add_of_le' hn
      have hidle : (alternatingTrace.st (k + 3)).tasks.rows = [] := (alternatingState_done k).1
      rw [← Table.mem_rows, hidle] at hu
      cases hu
  recoveries n T := by
    refine ⟨2 * (n + T.toNat) + 1 + 3, by omega, 0, (2 * (n + T.toNat) + 1 : ℕ) + 16 * minute,
      (2 * (n + T.toNat) + 1 : ℕ), ?_, ?_⟩
    · exact if_neg (by omega)
    · simp only [DB.recoveryTimeout, le_refl, ↓reduceIte]
      have : (0 : ℤ) < minute := by decide
      omega
  crashes := by
    refine ⟨3, fun m hm c i he => ?_⟩
    obtain ⟨k, rfl⟩ := Nat.exists_eq_add_of_le' hm
    change (if k % 2 = 0 then _ else _) = _ at he
    split at he <;> cases he

theorem drains_alternatingTrace :
    Fair alternatingTrace ∧ ∃ N, (∀ n ≥ N, (alternatingTrace.st n).Idle) ∧
      ∃ r', r'.status.Terminal ∧ ∀ n ≥ N, (alternatingTrace.st n).db.jobs.find 1 = some r' := by
  have hidle : (alternatingTrace.st 0).Idle := rfl
  have hst : (alternatingTrace.st 0).Started := by
    intro id r hr hrun
    have hp : ∀ r ∈ (oneJob 3).db.jobs, r.status = .pending := by decide
    rw [hp r (Table.find_eq_some.1 hr).1] at hrun
    cases hrun
  obtain ⟨N, hN, hjobs⟩ := drains alternatingTrace alternatingTrace_fair hidle.owned hst
  refine ⟨alternatingTrace_fair, N, hN, ?_⟩
  exact hjobs 1 (.sample 1 "kline" 3 0) rfl (.inl rfl)

end System

end Aggregator.Scheduler
