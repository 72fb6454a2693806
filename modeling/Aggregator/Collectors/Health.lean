/-
  Health reports of the executors (`reportHealth` of
  `internal/collectors/core/collector.go`, `report` of
  `internal/collectors/aggregate/executor.go`).

  Both executors of the collector service report how each execution ended, under the
  service, the instance, the exchange and the data type.  The processes of one instance
  name write the same rows, and an execution goes on whether or not its report could be
  written.

  * `Execution.report_spec`: an execution reports at most once, as "healthy" iff it
    returned nil;
  * `health_of_run`: in any interleaving of the statements of the reports, the row of a
    scope says how the execution ended that reported last, and when one last succeeded.
-/
import Aggregator.Collectors.Aggregate
import Aggregator.Collectors.Collector
import Aggregator.Repositories.CollectorHealth

namespace Aggregator.Collectors

open Aggregator.Exchanges Aggregator.Go Aggregator.Hardening Aggregator.Normalizers
  Aggregator.Repositories Aggregator.Scheduler

/-- The `Service` and the `Instance` of an executor. -/
structure Reporter where
  service : String
  instanceID : String
deriving DecidableEq, Repr

namespace Reporter
variable (r : Reporter)

def serviceName : String := if r.service = "" then "collector-service" else r.service

def instanceName : String := if r.instanceID = "" then "default" else r.instanceID

/-- The record of `reportHealth`, for the time `now`. -/
def reportHealth (job : Job) (status message : String) (now : ℤ) : CollectorHealth where
  serviceName := r.serviceName
  instanceID := r.instanceName
  exchange := job.exchange
  dataType := job.dataType
  status := status
  heartbeatAt := now
  lastSuccessAt := if status = "healthy" then now else 0
  lastErrorAt := if status = "healthy" then 0 else if message ≠ "" then now else 0
  errorMessage := message
  metrics := none

/-- The record of `report`, for the time `now`. -/
def report (job : Job) (status message : String) (now : ℤ) : CollectorHealth where
  serviceName := r.serviceName
  instanceID := r.instanceName
  exchange := "aggregate"
  dataType := job.dataType
  status := status
  heartbeatAt := now
  lastSuccessAt := if status = "healthy" then now else 0
  lastErrorAt := if status = "healthy" then 0 else now
  errorMessage := message
  metrics := some (.obj [("symbol_id", .int job.symbolID)])

end Reporter

/-! ## What an execution reports -/

/-- Reports of an execution that returned nil iff `ok`: at most one, which says so. -/
inductive Tells (ok : Prop) : List (String × String) → Prop
  | none : Tells ok []
  | healthy : ok → Tells ok [("healthy", "")]
  | failed {status message} : ¬ok → status = "degraded" ∨ status = "unhealthy" →
      Tells ok [(status, message)]

/-- The status and the message of a health report. -/
def Record.healthReport : Record → Option (String × String)
  | .health status message => some (status, message)
  | .request .. => none

namespace Collector
variable (c : Collector)

/-- The health reports of an execution. -/
def reports (job : Job) : List (String × String) := (c.execute job).2.filterMap Record.healthReport

/-- What an end of `Execute` returns and what it records say the same. -/
def Honest (ending : Except Stop Unit × List Record) : Prop :=
  Tells (ending.1 = .ok ()) (ending.2.filterMap Record.healthReport)

theorem honest_giveUp {status : String} (hstatus : status = "degraded" ∨ status = "unhealthy")
    (err returned : Err Fault) : Honest (c.giveUp status err returned) := by
  show Tells _ ((c.reportHealth status err.message).filterMap Record.healthReport)
  unfold reportHealth
  split
  · exact .failed nofun hstatus
  · exact .none

theorem honest_handleResponse (adapter : Adapter) (resp : Response) (job : Job) (symbol : Symbol) :
    Honest (c.handleResponse adapter resp job symbol) := by
  unfold handleResponse
  dsimp only
  split
  · exact c.honest_giveUp (.inl rfl) _ _
  · split
    · exact c.honest_giveUp (.inr rfl) _ _
    · split
      · -- a panic of `Normalize` passes through
        exact .none
      · exact c.honest_giveUp (.inr rfl) _ _
      · split
        · exact c.honest_giveUp (.inr rfl) _ _
        · show Tells _ ((c.reportHealth "healthy" "").filterMap Record.healthReport)
          unfold reportHealth
          split
          · exact .healthy rfl
          · exact .none

/-- The log of the request is no health report. -/
theorem filterMap_logRequest (endpoint : EndpointRow) (req : Request)
    (outcome : Except (Err Fault) Response) :
    (c.logRequest endpoint req outcome).filterMap Record.healthReport = [] := by
  unfold logRequest
  split
  · cases outcome <;> rfl
  · rfl

theorem tells_reports (job : Job) : Tells ((c.execute job).1 = .ok ()) (c.reports job) := by
  show Honest (c.execute job)
  unfold execute
  split
  · exact c.honest_giveUp (.inr rfl) _ _
  · split
    · exact c.honest_giveUp (.inr rfl) _ _
    · split
      · exact c.honest_giveUp (.inl rfl) _ _
      · split
        · exact c.honest_giveUp (.inr rfl) _ _
        · split
          · exact c.honest_giveUp (.inl rfl) _ _
          · next req _ =>
            dsimp only [Honest]
            rw [List.filterMap_append, filterMap_logRequest, List.nil_append]
            split
            · exact c.honest_giveUp (.inl rfl) _ _
            · exact c.honest_handleResponse _ _ _ _

end Collector

namespace Aggregate.Executor

/-- The calls of `report` during `Execute`. -/
def reports (job : Job) (env : Env) : List (String × String) :=
  if job.symbolID ≤ 0 then []
  else
    match Store.buildLatest env job.symbolID (snapshotTime job env.now) with
    | .error err => [("degraded", err.message)]
    | .ok snapshot =>
      if snapshot.exchangeCount = 0 then
        [("degraded", s!"no exchange snapshots available for symbol_id {job.symbolID}")]
      else
        match env.upsertErr with
        | some err => [("degraded", err.message)]
        | none =>
          if env.hasAnalytics then
            match env.analyticsErr with
            | some err => [("degraded", err.message)]
            | none =>
              match env.upsertAnalyticsErr with
              | some err => [("degraded", err.message)]
              | none => [("healthy", "")]
          else [("healthy", "")]

theorem tells_reports (job : Job) (env : Env) (s : Store) :
    Tells ((execute job env s).1 = none) (reports job env) := by
  unfold execute reports
  split
  · exact .none
  · dsimp only
    cases Store.buildLatest env job.symbolID (snapshotTime job env.now) with
    | error err => exact .failed nofun (.inl rfl)
    | ok snapshot =>
      dsimp only
      split
      · exact .failed nofun (.inl rfl)
      · cases env.upsertErr with
        | some err => exact .failed nofun (.inl rfl)
        | none =>
          dsimp only [executeAnalytics]
          split
          · cases env.analyticsErr with
            | some err => exact .failed nofun (.inl rfl)
            | none =>
              cases env.upsertAnalyticsErr with
              | some err => exact .failed nofun (.inl rfl)
              | none => exact .healthy rfl
          · exact .healthy rfl

end Aggregate.Executor

/-! ## Executions -/

/-- An execution by one of the executors of the service. -/
inductive Call where
  | collect (c : Collector)
  | aggregate (env : Aggregate.Env) (store : Aggregate.Store)

/-- An execution of a job; the clock shows `now` for its report. -/
structure Execution where
  reporter : Reporter
  job : Job
  call : Call
  now : ℤ
  now_ne : now ≠ 0

namespace Execution

/-- The execution returns nil. -/
def Succeeds (e : Execution) : Prop :=
  match e.call with
  | .collect c => (c.execute e.job).1 = .ok ()
  | .aggregate env store => (Aggregate.Executor.execute e.job env store).1 = none

instance : DecidablePred Succeeds := fun e =>
  match h : e.call with
  | .collect c => decidable_of_iff ((c.execute e.job).1 = .ok ()) (by rw [Succeeds, h])
  | .aggregate env store =>
    decidable_of_iff ((Aggregate.Executor.execute e.job env store).1 = none) (by rw [Succeeds, h])

/-- The records that the execution passes to `Upsert`. -/
def reports (e : Execution) : List CollectorHealth :=
  match e.call with
  | .collect c => (c.reports e.job).map fun r => e.reporter.reportHealth e.job r.1 r.2 e.now
  | .aggregate env _ => (Aggregate.Executor.reports e.job env).map fun r =>
      e.reporter.report e.job r.1 r.2 e.now

end Execution

/-- A report at the time `now` of an execution that returned nil iff `ok`. -/
structure Describes (ok : Prop) (now : ℤ) (h : CollectorHealth) : Prop where
  heartbeat : h.heartbeatAt = now
  status : h.status = "healthy" ↔ ok
  status_mem : h.status ∈ healthStatuses
  success : h.lastSuccessAt = if h.status = "healthy" then now else 0
  message : h.status = "healthy" → h.errorMessage = ""

theorem Tells.describes {ok : Prop} {l : List (String × String)} (ht : Tells ok l)
    (record : String × String → CollectorHealth) {now : ℤ}
    (hheartbeat : ∀ r, (record r).heartbeatAt = now) (hstatus : ∀ r, (record r).status = r.1)
    (hsuccess : ∀ r, (record r).lastSuccessAt = if r.1 = "healthy" then now else 0)
    (hmessage : ∀ r, (record r).errorMessage = r.2) {h : CollectorHealth} (hh : h ∈ l.map record) :
    l.map record = [h] ∧ Describes ok now h := by
  cases ht with
  | none => cases hh
  | healthy hok =>
    obtain rfl := List.mem_singleton.1 hh
    refine ⟨rfl, hheartbeat _, iff_of_true (hstatus _) hok, ?_, ?_, fun _ => hmessage _⟩
    · rw [hstatus]
      decide
    · rw [hsuccess, hstatus]
  | @failed status message hok hs =>
    obtain rfl := List.mem_singleton.1 hh
    have hne : status ≠ "healthy" := by
      rintro rfl
      revert hs
      decide
    have hne : (record (status, message)).status ≠ "healthy" := by rwa [hstatus]
    refine ⟨rfl, hheartbeat _, iff_of_false hne hok, ?_, ?_, fun heq => absurd heq hne⟩
    · rw [hstatus]
      show status ∈ healthStatuses
      rcases hs with rfl | rfl <;> decide
    · rw [hsuccess, hstatus]

/-- **An execution reports at most once**, and says how it ended. -/
theorem Execution.report_spec (e : Execution) {h : CollectorHealth} (hh : h ∈ e.reports) :
    e.reports = [h] ∧ Describes e.Succeeds e.now h := by
  obtain ⟨reporter, job, call, now, hnow⟩ := e
  cases call with
  | collect c =>
    have ht := c.tells_reports job
    exact ht.describes (fun r => reporter.reportHealth job r.1 r.2 now)
      (fun _ => rfl) (fun _ => rfl) (fun _ => rfl) (fun _ => rfl) hh
  | aggregate env store =>
    have ht := Aggregate.Executor.tells_reports job env store
    exact ht.describes (fun r => reporter.report job r.1 r.2 now)
      (fun _ => rfl) (fun _ => rfl) (fun _ => rfl) (fun _ => rfl) hh

/-! ## The rows -/

/-- An execution with its report, which the `CHECK`s of the table let through. -/
structure Reporting where
  execution : Execution
  health : CollectorHealth
  reported : health ∈ execution.reports
  checks : health.Checks

namespace Reporting
variable (r : Reporting)

def row : HealthRow := r.health.row r.execution.now r.checks

theorem describes : Describes r.execution.Succeeds r.execution.now r.health :=
  (r.execution.report_spec r.reported).2

theorem heartbeatAt_row : r.row.heartbeatAt = r.execution.now := by
  show (if isZero r.health.heartbeatAt then r.execution.now else r.health.heartbeatAt) = _
  rw [r.describes.heartbeat, ite_self]

theorem status_row : r.row.status = "healthy" ↔ r.execution.Succeeds := r.describes.status

theorem errorMessage_row (h : r.execution.Succeeds) : r.row.errorMessage = none := by
  show nullIfEmpty r.health.errorMessage = none
  rw [r.describes.message (r.describes.status.2 h)]
  rfl

theorem lastSuccessAt_row :
    r.row.lastSuccessAt = if r.execution.Succeeds then some r.execution.now else none := by
  show nullableTime r.health.lastSuccessAt = _
  rw [r.describes.success]
  by_cases h : r.execution.Succeeds
  · rw [if_pos (r.describes.status.2 h), if_pos h]
    exact if_neg (by simpa [isZero] using r.execution.now_ne)
  · rw [if_neg (mt r.describes.status.1 h), if_neg h]
    rfl

/-- The time of the first of some executions that succeeded. -/
theorem findSome?_lastSuccessAt (l : List Reporting) :
    (l.findSome? fun r => r.row.lastSuccessAt) =
      (l.find? fun r => r.execution.Succeeds).map fun r => r.execution.now := by
  rw [List.find?_eq_findSome?_guard, List.map_findSome?]
  congr 1
  funext r
  rw [lastSuccessAt_row, Function.comp, Option.guard]
  by_cases h : r.execution.Succeeds <;> simp [h]

end Reporting

/-- The table, and the executions whose reports are written in it. -/
abbrev HealthBoard := Board Reporting HealthRow.scope

/-- The executions that have reported for a scope, the last one first. -/
def HealthBoard.reported (s : HealthBoard) (scope : HealthScope) : List Reporting :=
  s.doneFor Reporting.row scope

/-- A statement of one of the executions. -/
abbrev HealthStep : HealthBoard → Statement Reporting → HealthBoard → Prop :=
  Board.Step HealthRow.lay_scope Reporting.row

/-- **The row of a scope** that an execution has reported for last. -/
theorem health_of_run {statements : List (Statement Reporting)} {s : HealthBoard}
    (h : Run HealthStep Board.empty statements s) {scope : HealthScope} {r : Reporting}
    {earlier : List Reporting} (hlast : s.reported scope = r :: earlier) :
    ∃ row, s.table.find scope = some row ∧
      row.heartbeatAt = r.execution.now ∧
      (row.status = "healthy" ↔ r.execution.Succeeds) ∧
      (r.execution.Succeeds → row.errorMessage = none) ∧
      (∀ r', (r :: earlier).find? (fun r => r.execution.Succeeds) = some r' →
        row.lastSuccessAt = some r'.execution.now) ∧
      ∀ t, row.lastSuccessAt = some t →
        ∃ r' ∈ s.reported scope ++ s.inFlight, r'.execution.Succeeds ∧ r'.execution.now = t := by
  obtain ⟨below, hbelow, hfind⟩ := (Board.serial_of_run HealthRow.lay_assoc HealthRow.lay_self
    HealthRow.lay_below h).exists_below scope
  have hlist : s.doneFor Reporting.row scope = r :: earlier := hlast
  rw [hlist] at hfind
  obtain ⟨row, hrow⟩ : ∃ row, serial HealthRow.lay (((r :: earlier) ++ below).map Reporting.row) =
      some row := ⟨_, rfl⟩
  have hlastRow {γ : Type} (c : HealthRow → γ) (hc : ∀ a b, c (HealthRow.lay a b) = c a) :
      c row = c r.row := by
    have h := serial_map hc (((r :: earlier) ++ below).map Reporting.row)
    rw [hrow] at h
    exact Option.some.inj h
  have hsuccess : row.lastSuccessAt = (((r :: earlier) ++ below).find? fun r =>
      r.execution.Succeeds).map fun r => r.execution.now := by
    have h : (serial HealthRow.lay (((r :: earlier) ++ below).map Reporting.row)).bind
        HealthRow.lastSuccessAt = _ := serial_bind (fun _ _ => rfl) _
    rw [hrow, List.findSome?_map] at h
    exact h.trans (Reporting.findSome?_lastSuccessAt _)
  refine ⟨row, hfind.trans hrow, ?_, ?_, ?_, ?_, ?_⟩
  · rw [hlastRow HealthRow.heartbeatAt fun _ _ => rfl, r.heartbeatAt_row]
  · rw [hlastRow HealthRow.status fun _ _ => rfl, r.status_row]
  · rw [hlastRow HealthRow.errorMessage fun _ _ => rfl]
    exact r.errorMessage_row
  · intro r' hr'
    rw [hsuccess, List.find?_append, hr']
    rfl
  · intro t ht
    rw [hsuccess] at ht
    obtain ⟨r', hr', rfl⟩ := Option.map_eq_some_iff.1 ht
    refine ⟨r', ?_, by simpa using List.find?_some hr', rfl⟩
    rw [hlast]
    exact (List.mem_append.1 (List.mem_of_find?_eq_some hr')).elim (List.mem_append_left _)
      fun hb => List.mem_append_right _ (hbelow _ hb)

/-! ### Two processes of one name -/

/-- A job whose snapshot is built from `exchanges` exchanges, at the time `now`. -/
def aggregateExecution (exchanges now : ℤ) (hnow : now ≠ 0) : Execution where
  reporter := ⟨"collector-service", "default"⟩
  job := .sample 1 "aggregated_snapshot" 3 0
  call := .aggregate ⟨now, .ok exchanges, none, false, none, none⟩ ⟨.empty, [], [], []⟩
  now := now
  now_ne := hnow

/-- The snapshot of two exchanges is written. -/
def snapshotWritten : Reporting where
  execution := aggregateExecution 2 5 (by decide)
  health := Reporter.report ⟨"collector-service", "default"⟩ (.sample 1 "aggregated_snapshot" 3 0)
    "healthy" "" 5
  reported := List.mem_singleton_self _
  checks := ⟨by decide +kernel, by decide⟩

/-- There is no exchange to make a snapshot of. -/
def snapshotMissing : Reporting where
  execution := aggregateExecution 0 6 (by decide)
  health := Reporter.report ⟨"collector-service", "default"⟩ (.sample 1 "aggregated_snapshot" 3 0)
    "degraded" "no exchange snapshots available for symbol_id 1" 6
  reported := List.mem_singleton_self _
  checks := ⟨by decide +kernel, by decide⟩

/-- The execution that succeeded has inserted the row and is overtaken. -/
def overtaken : HealthBoard where
  table := Board.put HealthRow.lay_scope
    ((Table.empty.insertNew snapshotWritten.row).insertNew snapshotMissing.row) snapshotMissing.row
  inFlight := [snapshotWritten]
  done := [snapshotMissing]

theorem health_of_run_overtaken :
    Run HealthStep Board.empty
        [.insert snapshotWritten, .insert snapshotMissing, .update snapshotMissing] overtaken ∧
      overtaken.reported snapshotMissing.row.scope = [snapshotMissing] ∧
      ∃ row, overtaken.table.find snapshotMissing.row.scope = some row ∧ row.heartbeatAt = 6 ∧
        row.status ≠ "healthy" := by
  have hrun : Run HealthStep Board.empty
      [.insert snapshotWritten, .insert snapshotMissing, .update snapshotMissing] overtaken :=
    .cons .insert <| .cons .insert <| .single <| .update (.refl _)
  have hdone : overtaken.reported snapshotMissing.row.scope = [snapshotMissing] := by
    simp [HealthBoard.reported, Board.doneFor, overtaken]
  obtain ⟨row, hfind, hbeat, hstatus, -⟩ := health_of_run hrun hdone
  exact ⟨hrun, hdone, row, hfind, hbeat, fun heq => absurd (hstatus.1 heq) (by decide)⟩

end Aggregator.Collectors
