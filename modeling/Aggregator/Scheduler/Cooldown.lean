/-
  What a worker asks of its circuit breaker along many calls of `RunOnce`.

  `Worker.attemptTraced` is `Worker.attempt` with the calls it makes: those of the
  breaker, with what they are given, and `Execute`.  The calls of a sequence of
  `RunOnce` calls are those of its attempts one after the other.  Between two
  calls of `RunOnce` anything may happen to the database.

  * `Worker.traced_cases`: what the calls of one attempt are;
  * `Worker.refused_until`: while a circuit is open, no job of its key is executed
    before it may be half-opened;
  * `Worker.runs_cooldown`: after a failure that opens a circuit no job of its key
    is executed before the cooldown is over, and the breaker is told of each
    execution once.
-/
import Aggregator.Ratelimit.CircuitHistory
import Aggregator.Scheduler.Worker

namespace Aggregator.Scheduler

open Aggregator.Go Aggregator.Ratelimit

/-- The key a job has for the breaker. -/
def Job.breakerKey (job : Job) : Key :=
  ⟨job.exchange, (runtimeMetadataFromJob job).endpointName, job.dataType⟩

/-- A call the worker makes.  `Execute` is called at `since` or later: that is
    when the breaker was asked. -/
inductive Event where
  | call (c : Ratelimit.Call ExecutionError)
  | execute (job : Job) (since : ℤ)

namespace Event

/-- The call of the breaker. -/
def call? : Event → Option (Ratelimit.Call ExecutionError)
  | call c => some c
  | execute _ _ => none

/-- What the breaker's clock shows, where it is read. -/
def reading : Event → Option ℤ
  | call (.allow _ _ now) | call (.recordFailure _ _ now) => some now
  | call (.recordSuccess _) | execute _ _ => none

end Event

/-- A job that was processed, with the calls made for it. -/
structure Processed where
  job : Job
  outcome : Outcome
  events : List Event

namespace Worker

/-- `attempt`, with the calls it makes. -/
def attemptTraced (w : Worker) (env : Attempt) (job : Job) (breaker : CircuitBreaker) :
    List Event × Outcome × CircuitBreaker :=
  let metadata := runtimeMetadataFromJob job
  let key : Key := ⟨job.exchange, metadata.endpointName, job.dataType⟩
  let (events, allowed, breaker) : List Event × Except Error CircuitState × CircuitBreaker :=
    if w.hasBreaker then
      ([.call (.allow env.done key env.allowNow)], breaker.allow env.done key env.allowNow)
    else ([], .ok .closed, breaker)
  match allowed with
  | .error err => (events, .rejected err, breaker)
  | .ok _ =>
    match (if w.hasLimiter && metadata.requiresEndpoint then env.waitErr else none) with
    | some err => (events, .throttled err, breaker)
    | none =>
      let events := events ++ [.execute job env.allowNow]
      match env.execErr with
      | some err =>
        let kind := (classifyExecutionError err).1
        if w.hasBreaker then
          (events ++ [.call (.recordFailure key kind env.failNow)], .executed (some err),
            breaker.recordFailure key kind env.failNow)
        else (events, .executed (some err), breaker)
      | none =>
        if w.hasBreaker then
          (events ++ [.call (.recordSuccess key)], .executed none, breaker.recordSuccess key)
        else (events, .executed none, breaker)

theorem attemptTraced_snd (w : Worker) (env : Attempt) (job : Job) (b : CircuitBreaker) :
    (w.attemptTraced env job b).2 = w.attempt env job b := by
  simp only [attemptTraced, attempt]
  generalize (if (w.hasLimiter && (runtimeMetadataFromJob job).requiresEndpoint) = true then
    env.waitErr else none) = wait
  cases w.hasBreaker with
  | true =>
    simp only [↓reduceIte]
    cases (b.allow env.done _ env.allowNow).1 with
    | error err => rfl
    | ok state =>
      cases wait with
      | some err => rfl
      | none => cases env.execErr <;> rfl
  | false =>
    cases wait with
    | some err => rfl
    | none => cases env.execErr <;> rfl

/-- The attempts the loop of `RunOnce` makes: a failed store update ends it. -/
def attempted (env : ℕ → Attempt) : ℕ → List Job → List (Attempt × Job)
  | _, [] => []
  | n, job :: jobs =>
    (env n, job) :: if (env n).storeErr.isSome then [] else attempted env (n + 1) jobs

/-- The attempts of some calls of `RunOnce`, each with the database it finds. -/
def attempts (w : Worker) (runs : List (DB × Call)) : List (Attempt × Job) :=
  runs.flatMap fun r => attempted r.2.attempts 0 (w.batch r.2 r.1)

/-- The jobs processed along some attempts. -/
def history (w : Worker) : CircuitBreaker → List (Attempt × Job) → List Processed
  | _, [] => []
  | b, (env, job) :: as =>
    let (events, outcome, b) := w.attemptTraced env job b
    ⟨job, outcome, events⟩ :: history w b as

/-- The calls of a worker along some attempts. -/
def trace (w : Worker) (b : CircuitBreaker) (as : List (Attempt × Job)) : List Event :=
  (w.history b as).flatMap Processed.events

/-- The state after some calls of `RunOnce`. -/
def runMany (w : Worker) (s : State) (runs : List (DB × Call)) : State :=
  runs.foldl (fun s r => (w.runOnce r.2 { s with db := r.1 }).2.2) s

/-! ## One attempt -/

/-- **The calls of one attempt**: the breaker is asked, and if the job is executed
    it was admitted, and the breaker is told of the outcome. -/
theorem traced_cases {w : Worker} (hb : w.hasBreaker) (env : Attempt) (job : Job) (b : CircuitBreaker) :
    let allow : Ratelimit.Call ExecutionError := .allow env.done job.breakerKey env.allowNow
    (¬(w.attempt env job b).1.executes ∧ (w.attemptTraced env job b).1 = [.call allow] ∧
      (w.attempt env job b).2 = b.call allow) ∨
    ((w.attempt env job b).1.executes ∧ (∃ state, (b.allow env.done job.breakerKey env.allowNow).1 =
        .ok state) ∧
      ∃ l : Ratelimit.Call ExecutionError, l.key = job.breakerKey ∧
        (l = .recordSuccess job.breakerKey ∨
          ∃ kind, l = .recordFailure job.breakerKey kind env.failNow) ∧
        (w.attemptTraced env job b).1 = [.call allow, .execute job env.allowNow, .call l] ∧
        (w.attempt env job b).2 = (b.call allow).call l) := by
  intro allow
  simp only [attempt, attemptTraced, hb, ↓reduceIte]
  have hkey : (⟨job.exchange, (runtimeMetadataFromJob job).endpointName, job.dataType⟩ : Key) =
    job.breakerKey := rfl
  simp only [hkey]
  generalize (if (w.hasLimiter && (runtimeMetadataFromJob job).requiresEndpoint) = true then
    env.waitErr else none) = wait
  cases hallow : (b.allow env.done job.breakerKey env.allowNow).1 with
  | error err => exact .inl ⟨Bool.false_ne_true, rfl, rfl⟩
  | ok state =>
    cases wait with
    | some err => exact .inl ⟨Bool.false_ne_true, rfl, rfl⟩
    | none =>
      cases env.execErr with
      | some err => exact .inr ⟨rfl, ⟨state, rfl⟩, _, rfl, .inr ⟨_, rfl⟩, rfl, rfl⟩
      | none => exact .inr ⟨rfl, ⟨state, rfl⟩, _, rfl, .inl rfl, rfl, rfl⟩

/-! ## Attempts one after the other -/

section
variable {w : Worker} {b : CircuitBreaker} {as : List (Attempt × Job)} {key : Key}

/-- The breaker after some attempts. -/
def afterAll (w : Worker) (b : CircuitBreaker) (as : List (Attempt × Job)) : CircuitBreaker :=
  as.foldl (fun b a => (w.attempt a.1 a.2 b).2) b

theorem history_cons (env : Attempt) (job : Job) :
    w.history b ((env, job) :: as) =
      ⟨job, (w.attempt env job b).1, (w.attemptTraced env job b).1⟩ ::
        w.history (w.attempt env job b).2 as := by
  rw [← attemptTraced_snd]
  rfl

theorem history_append (as as' : List (Attempt × Job)) :
    w.history b (as ++ as') = w.history b as ++ w.history (w.afterAll b as) as' := by
  induction as generalizing b with
  | nil => rfl
  | cons a as ih =>
    obtain ⟨env, job⟩ := a
    rw [List.cons_append, history_cons, history_cons, ih]
    rfl

theorem trace_cons (env : Attempt) (job : Job) :
    w.trace b ((env, job) :: as) =
      (w.attemptTraced env job b).1 ++ w.trace (w.attempt env job b).2 as := by
  rw [trace, history_cons, List.flatMap_cons]
  rfl

/-- The breaker received the calls of the trace. -/
theorem afterAll_eq (hb : w.hasBreaker) (b : CircuitBreaker) (as : List (Attempt × Job)) :
    w.afterAll b as = b.calls ((w.trace b as).filterMap Event.call?) := by
  induction as generalizing b with
  | nil => rfl
  | cons a as ih =>
    obtain ⟨env, job⟩ := a
    rw [trace_cons, List.filterMap_append]
    change w.afterAll (w.attempt env job b).2 as = _
    rw [ih]
    rcases traced_cases hb env job b with ⟨-, ht, hb'⟩ | ⟨-, -, l, -, -, ht, hb'⟩
    · rw [ht, hb']; rfl
    · rw [ht, hb']; rfl

/-- **Each execution is recorded once**, and nothing else is. -/
theorem recorded_once (hb : w.hasBreaker) (b : CircuitBreaker) (as : List (Attempt × Job)) :
    ∀ p ∈ w.history b as, ∃ done now,
      (¬p.outcome.executes ∧ p.events = [.call (.allow done p.job.breakerKey now)]) ∨
      (p.outcome.executes ∧ ∃ l, p.events =
          [.call (.allow done p.job.breakerKey now), .execute p.job now, .call l] ∧
        (l = .recordSuccess p.job.breakerKey ∨
          ∃ kind t, l = .recordFailure p.job.breakerKey kind t)) := by
  induction as generalizing b with
  | nil => simp [history]
  | cons a as ih =>
    obtain ⟨env, job⟩ := a
    intro p hp
    rw [history_cons] at hp
    rcases List.mem_cons.1 hp with rfl | hp
    · refine ⟨env.done, env.allowNow, ?_⟩
      rcases traced_cases hb env job b with ⟨he, ht, -⟩ | ⟨he, -, l, -, hl, ht, -⟩
      · exact .inl ⟨he, ht⟩
      · refine .inr ⟨he, l, ht, ?_⟩
        rcases hl with hl | ⟨kind, hl⟩
        exacts [.inl hl, .inr ⟨kind, _, hl⟩]
    · exact ih _ p hp

/-- The clock was read before each execution. -/
theorem reading_of_execute (hb : w.hasBreaker) {job : Job} {since : ℤ}
    (h : .execute job since ∈ w.trace b as) :
    since ∈ (w.trace b as).filterMap Event.reading := by
  obtain ⟨p, hp, he⟩ := List.mem_flatMap.1 h
  refine List.mem_filterMap.2 ?_
  obtain ⟨done, now, ⟨-, hev⟩ | ⟨-, l, hev, -⟩⟩ := recorded_once hb b as p hp
  · simp [hev] at he
  · refine ⟨.call (.allow done p.job.breakerKey now), List.mem_flatMap.2 ⟨p, hp, by simp [hev]⟩, ?_⟩
    simp only [hev, List.mem_cons, reduceCtorEq, Event.execute.injEq, List.not_mem_nil, or_false,
      false_or] at he
    rw [he.2]
    rfl

/-- The first reading of a trace is the least. -/
theorem first_reading_le {now : ℤ} {done : Option Error} {es : List Event}
    (h : w.trace b as = .call (.allow done key now) :: es)
    (hclock : ((w.trace b as).filterMap Event.reading).Pairwise (· ≤ ·)) :
    ∀ t ∈ (w.trace b as).filterMap Event.reading, now ≤ t := by
  rw [h, List.filterMap_cons_some (show Event.reading (.call (.allow done key now)) = some now
    from rfl)] at hclock ⊢
  obtain ⟨hle, -⟩ := List.pairwise_cons.1 hclock
  intro t ht
  rcases List.mem_cons.1 ht with rfl | ht
  exacts [le_rfl, hle t ht]

/-- Before the circuit may be half-opened, an attempt leaves it as it is, and if
    it executes a job, then one of another key. -/
theorem attempt_while_open (hb : w.hasBreaker) {env : Attempt} {job : Job}
    (ho : (b.stateFor key).state = .open_) (hlt : env.allowNow < (b.stateFor key).openUntil) :
    (w.attempt env job b).2.stateFor key = b.stateFor key ∧
      ∀ job' since, .execute job' since ∈ (w.attemptTraced env job b).1 →
        job'.breakerKey.string ≠ key.string := by
  have hallow : (b.call (.allow env.done job.breakerKey env.allowNow)).stateFor key =
      b.stateFor key := by
    rw [CircuitBreaker.stateFor_call]
    split
    · cases env.done with
      | some err => rfl
      | none => rw [Circuit.after, if_neg (fun h => not_le.2 hlt h.2)]
    · rfl
  rcases traced_cases hb env job b with ⟨-, ht, hb'⟩ | ⟨-, ⟨state, hok⟩, l, hl, -, ht, hb'⟩
  · exact ⟨by rw [hb', hallow], fun job' since h => by simp [ht] at h⟩
  · have hne : job.breakerKey.string ≠ key.string := by
      intro hk
      rw [← CircuitBreaker.stateFor_congr hk] at ho hlt
      exact not_le.2 hlt (CircuitBreaker.openUntil_le_of_allow hok ho)
    refine ⟨?_, fun job' since h => ?_⟩
    · rw [hb', CircuitBreaker.stateFor_call, hl, if_neg hne, hallow]
    · simp only [ht, List.mem_cons, reduceCtorEq, Event.execute.injEq, List.not_mem_nil, or_false,
        false_or] at h
      rw [h.1]
      exact hne

/-- **An open circuit keeps the jobs of its key from being executed** until it may
    be half-opened. -/
theorem refused_until (hb : w.hasBreaker) {u : ℤ} (ho : (b.stateFor key).state = .open_)
    (hu : u ≤ (b.stateFor key).openUntil)
    (hclock : ((w.trace b as).filterMap Event.reading).Pairwise (· ≤ ·)) {job : Job} {since : ℤ}
    (h : .execute job since ∈ w.trace b as) (hk : job.breakerKey.string = key.string) :
    u ≤ since := by
  induction as generalizing b with
  | nil => simp [trace, history] at h
  | cons a as ih =>
    obtain ⟨env, job'⟩ := a
    by_cases hlate : u ≤ env.allowNow
    · -- the clock has passed `u`
      obtain ⟨es, hes⟩ : ∃ es, w.trace b ((env, job') :: as) =
          .call (.allow env.done job'.breakerKey env.allowNow) :: es := by
        rw [trace_cons]
        rcases traced_cases hb env job' b with ⟨-, ht, -⟩ | ⟨-, -, l, -, -, ht, -⟩ <;>
          exact ⟨_, by rw [ht]; rfl⟩
      exact hlate.trans (first_reading_le hes hclock since (reading_of_execute hb h))
    · obtain ⟨hsame, hother⟩ :=
        attempt_while_open hb ho (lt_of_lt_of_le (not_le.1 hlate) hu)
      rw [trace_cons] at h hclock
      rw [List.filterMap_append] at hclock
      rcases List.mem_append.1 h with h | h
      · exact absurd hk (hother job since h)
      · exact ih (by rw [hsame]; exact ho) (by rw [hsame]; exact hu)
          (List.pairwise_append.1 hclock).2.1 h

/-- What follows a recorded failure in the trace is the trace of the attempts
    after it. -/
theorem trace_after_failure (hb : w.hasBreaker) {pre post : List Event}
    {l : Ratelimit.Call ExecutionError} (hl : l.isFailure)
    (h : w.trace b as = pre ++ .call l :: post) :
    ∃ as', post = w.trace ((b.calls (pre.filterMap Event.call?)).call l) as' := by
  induction as generalizing b pre with
  | nil => simp [trace, history] at h
  | cons a as ih =>
    obtain ⟨env, job⟩ := a
    rw [trace_cons] at h
    rcases traced_cases hb env job b with ⟨-, ht, hb'⟩ | ⟨-, -, l', -, -, ht, hb'⟩
    · rw [ht, hb'] at h
      rcases pre with _ | ⟨e, pre⟩
      all_goals simp only [List.cons_append, List.nil_append, List.cons.injEq] at h
      · obtain ⟨he, -⟩ := h
        obtain rfl := Event.call.inj he
        cases hl
      · obtain ⟨rfl, h⟩ := h
        obtain ⟨as', h⟩ := ih h
        exact ⟨as', h⟩
    · rw [ht, hb'] at h
      -- the failure is the third call of this attempt, or a call of a later one
      rcases pre with _ | ⟨e₁, _ | ⟨e₂, _ | ⟨e₃, pre⟩⟩⟩
      all_goals simp only [List.cons_append, List.nil_append, List.cons.injEq] at h
      · obtain ⟨he, -⟩ := h
        obtain rfl := Event.call.inj he
        cases hl
      · obtain ⟨-, he, -⟩ := h
        cases he
      · obtain ⟨rfl, rfl, he, rfl⟩ := h
        obtain rfl := Event.call.inj he
        exact ⟨as, rfl⟩
      · obtain ⟨rfl, rfl, rfl, h⟩ := h
        obtain ⟨as', h⟩ := ih h
        exact ⟨as', h⟩

end

/-! ## Calls of `RunOnce` -/

section
variable {w : Worker}

theorem processAll_history (env : ℕ → Attempt) (n : ℕ) (jobs : List Job) (s : State) :
    (w.processAll env n jobs s).2.2.breaker = w.afterAll s.breaker (attempted env n jobs) ∧
    (w.processAll env n jobs s).2.2.log = s.log ++
      (w.history s.breaker (attempted env n jobs)).map fun p => (p.job.id, p.outcome) := by
  induction jobs generalizing n s with
  | nil => exact ⟨rfl, (List.append_nil _).symm⟩
  | cons job jobs ih =>
    rw [attempted, history_cons]
    cases hs : (env n).storeErr with
    | some err =>
      rw [processAll_of_err hs]
      simp only [process, hs, Option.isSome_some, ↓reduceIte]
      exact ⟨rfl, rfl⟩
    | none =>
      rw [processAll_of_ok hs]
      obtain ⟨hbr, hlog⟩ := ih (n + 1) (w.process (env n) job s).2
      rw [hbr, hlog]
      simp only [process, hs, Option.isSome_none, Bool.false_eq_true, ↓reduceIte, List.map_cons,
        List.append_assoc, List.cons_append, List.nil_append]
      exact ⟨rfl, trivial⟩

theorem runOnce_history (c : Call) (s : State) :
    (w.runOnce c s).2.2.breaker = w.afterAll s.breaker (attempted c.attempts 0 (w.batch c s.db)) ∧
    (w.runOnce c s).2.2.log = s.log ++
      (w.history s.breaker (attempted c.attempts 0 (w.batch c s.db))).map
        fun p => (p.job.id, p.outcome) := by
  unfold batch
  cases h : w.claim c s.db with
  | error err =>
    rw [runOnce_of_error h]
    exact ⟨rfl, (List.append_nil _).symm⟩
  | ok r =>
    obtain ⟨jobs, db⟩ := r
    rw [runOnce_of_ok h]
    exact processAll_history _ _ _ _

/-- The breaker and the log after some calls of `RunOnce`. -/
theorem runMany_history (s : State) (runs : List (DB × Call)) :
    (w.runMany s runs).breaker = w.afterAll s.breaker (w.attempts runs) ∧
    (w.runMany s runs).log = s.log ++
      (w.history s.breaker (w.attempts runs)).map fun p => (p.job.id, p.outcome) := by
  induction runs generalizing s with
  | nil => exact ⟨rfl, (List.append_nil _).symm⟩
  | cons r runs ih =>
    obtain ⟨db, c⟩ := r
    obtain ⟨hbr, hlog⟩ := w.runOnce_history c { s with db := db }
    obtain ⟨ihb, ihl⟩ := ih (w.runOnce c { s with db := db }).2.2
    rw [hbr] at ihb ihl
    rw [hlog] at ihl
    simp only [attempts, List.flatMap_cons, history_append, List.map_append] at ihb ihl ⊢
    refine ⟨ihb.trans List.foldl_append.symm, ihl.trans (List.append_assoc _ _ _)⟩

/-- **The cooldown.**  Over any calls of `RunOnce` with a clock that does not run
    backwards, the breaker received the calls of the trace; after a failure that
    opens a circuit at `t`, no job of its key is executed before the cooldown is
    over; and for each job processed, the breaker is told of one outcome if it was
    executed, and of none otherwise. -/
theorem runs_cooldown (hb : w.hasBreaker) (s : State) (runs : List (DB × Call))
    (hclock : ((w.trace s.breaker (w.attempts runs)).filterMap Event.reading).Pairwise (· ≤ ·)) :
    let trace := w.trace s.breaker (w.attempts runs)
    let history := w.history s.breaker (w.attempts runs)
    (w.runMany s runs).breaker = s.breaker.calls (trace.filterMap Event.call?) ∧
    (w.runMany s runs).log = s.log ++ history.map (fun p => (p.job.id, p.outcome)) ∧
    (∀ pre post key kind t, trace = pre ++ .call (.recordFailure key kind t) :: post →
      let b := s.breaker.calls (pre.filterMap Event.call?)
      (b.stateFor key).state ≠ .open_ →
      ((b.recordFailure key kind t).stateFor key).state = .open_ →
      ∀ job since, .execute job since ∈ post → job.breakerKey.string = key.string →
        t + s.breaker.settings.cooldown ≤ since) ∧
    ∀ p ∈ history, ∃ done now,
      (¬p.outcome.executes ∧ p.events = [.call (.allow done p.job.breakerKey now)]) ∨
      (p.outcome.executes ∧ ∃ l, p.events =
          [.call (.allow done p.job.breakerKey now), .execute p.job now, .call l] ∧
        (l = .recordSuccess p.job.breakerKey ∨
          ∃ kind t, l = .recordFailure p.job.breakerKey kind t)) := by
  intro trace history
  obtain ⟨hbr, hlog⟩ := w.runMany_history s runs
  refine ⟨hbr.trans (afterAll_eq hb _ _), hlog, ?_, recorded_once hb _ _⟩
  intro pre post key kind t htrace b hne ho job since hex hk
  obtain ⟨as, rfl⟩ := trace_after_failure hb (l := .recordFailure key kind t) rfl htrace
  have huntil := CircuitBreaker.openUntil_of_opens hne ho
  rw [CircuitBreaker.calls_settings] at huntil
  rw [show w.trace s.breaker (w.attempts runs) = _ from htrace, List.filterMap_append,
    List.filterMap_cons] at hclock
  exact refused_until hb ho (le_of_eq huntil.symm)
    (List.pairwise_cons.1 (List.pairwise_append.1 hclock).2.1).2 hex hk

end

/-- A call of `RunOnce` that finds one job and executes it at `now`. -/
def runAt (id : ℤ) (execErr : Option Error) (now : ℤ) : DB × Call :=
  (⟨⟨[.sample id "kline" 3 0], List.nodup_singleton _⟩, []⟩,
    { claimErr := none, claimNow := now, locked := [], ret := .inOrder
      attempts := fun _ => ⟨none, now, now, none, execErr, now, now, none⟩ })

/-- A job fails and opens the circuit; a second one is refused, and a third one is
    executed when the cooldown is over. -/
theorem runs_cooldown_three :
    let w : Worker := ⟨false, true, 1, some fun _ => 30 * second, ⟨0, 0, 0⟩⟩
    let s : State := ⟨⟨.empty, []⟩, .new ⟨1, 10, 1⟩, [], []⟩
    let runs := [runAt 1 (some (newExecutionError .serverError true none)) 0, runAt 2 none 5,
      runAt 3 none 10]
    (w.runMany s runs).log.map (fun p => (p.1, p.2.executes)) = [(1, true), (2, false), (3, true)] ∧
    (w.runMany s runs).breaker = s.breaker.calls
      ((w.trace s.breaker (w.attempts runs)).filterMap Event.call?) ∧
    ∀ pre post key kind t, w.trace s.breaker (w.attempts runs) =
        pre ++ .call (.recordFailure key kind t) :: post →
      let b := s.breaker.calls (pre.filterMap Event.call?)
      (b.stateFor key).state ≠ .open_ →
      ((b.recordFailure key kind t).stateFor key).state = .open_ →
      ∀ job since, .execute job since ∈ post → job.breakerKey.string = key.string →
        t + s.breaker.settings.cooldown ≤ since := by
  intro w s runs
  have hclock : ((w.trace s.breaker (w.attempts runs)).filterMap Event.reading).Pairwise (· ≤ ·) := by
    rw [show (w.trace s.breaker (w.attempts runs)).filterMap Event.reading = [0, 0, 5, 10] by
      decide +kernel]
    decide
  obtain ⟨hbr, -, hcool, -⟩ := runs_cooldown (show w.hasBreaker from rfl) s runs hclock
  exact ⟨by decide +kernel, hbr, hcool⟩

end Worker

end Aggregator.Scheduler
