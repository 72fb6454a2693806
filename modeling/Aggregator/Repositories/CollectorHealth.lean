/-
  The health of the collectors (`internal/repositories/collector_health.go`,
  `migrations/000005_monitoring_quality_tables.sql`).

  `Upsert` writes a report in two statements, each its own transaction: an `INSERT`
  that does nothing if there is a row for the scope of the report, and an `UPDATE` of
  that row.  The update keeps the times of the last success and of the last error
  if the report has none.

  The reports of a scope can be put over one another in any grouping (`lay_assoc`),
  and one makes no difference below itself (`lay_below`), so `Lib.Reports` applies.
-/
import Aggregator.Go.Strings
import Aggregator.Go.Time
import Aggregator.Lib.Reports
import Aggregator.Repositories.MarketSnapshot

namespace Aggregator.Repositories

open Aggregator.Go

structure CollectorHealth where
  serviceName : String
  instanceID : String
  exchange : String
  dataType : String
  status : String
  heartbeatAt : ℤ
  lastSuccessAt : ℤ
  lastErrorAt : ℤ
  errorMessage : String
  metrics : Option Json

/-- `NULLIF(value, '')`. -/
def nullIfEmpty (value : String) : Option String := if value = "" then none else some value

theorem nullIfEmpty_ne (value : String) : nullIfEmpty value ≠ some "" := by
  unfold nullIfEmpty
  split
  · simp
  · simpa

theorem getD_nullIfEmpty (value : String) : (nullIfEmpty value).getD "" = value := by
  unfold nullIfEmpty
  split
  · next h => exact h.symm
  · rfl

/-- Two columns that are never the empty text are equal if they are with `COALESCE`. -/
theorem eq_of_getD_eq {a b : Option String} (ha : a ≠ some "") (hb : b ≠ some "")
    (h : a.getD "" = b.getD "") : a = b := by
  cases a with
  | none =>
    cases b with
    | none => rfl
    | some t => exact absurd (congrArg some (Eq.symm h)) hb
  | some s =>
    cases b with
    | none => exact absurd (congrArg some h) ha
    | some t => exact congrArg some h

def nullableTime (value : ℤ) : Option ℤ := if isZero value then none else some value

/-- The values of `CHECK (status IN (...))`. -/
def healthStatuses : List String := ["starting", "healthy", "degraded", "unhealthy", "stopped"]

/-- A row of `collector_health`, with the `CHECK`s of the table.  No row has an empty
    exchange or data type, which are written as null. -/
structure HealthRow where
  serviceName : String
  instanceID : String
  exchange : Option String
  dataType : Option String
  status : String
  heartbeatAt : ℤ
  lastSuccessAt : Option ℤ
  lastErrorAt : Option ℤ
  errorMessage : Option String
  metrics : Json
  exchange_ne : exchange ≠ some ""
  dataType_ne : dataType ≠ some ""
  exchange_lower : ∀ e ∈ exchange, e = toLower e
  status_mem : status ∈ healthStatuses

/-- The columns of `ux_collector_health_instance_scope`. -/
structure HealthScope where
  serviceName : String
  instanceID : String
  exchange : String
  dataType : String
deriving DecidableEq, Repr

namespace CollectorHealth

def scope (h : CollectorHealth) : HealthScope :=
  ⟨h.serviceName, h.instanceID, h.exchange, h.dataType⟩

/-- A report that the `CHECK`s of the table let through. -/
structure Checks (h : CollectorHealth) : Prop where
  exchange : h.exchange = toLower h.exchange
  status : h.status ∈ healthStatuses

instance (h : CollectorHealth) : Decidable h.Checks :=
  decidable_of_iff (h.exchange = toLower h.exchange ∧ h.status ∈ healthStatuses)
    ⟨fun ⟨he, hs⟩ => ⟨he, hs⟩, fun ⟨he, hs⟩ => ⟨he, hs⟩⟩

/-- The row that a report is inserted as. -/
def row (now : ℤ) (h : CollectorHealth) (hchecks : h.Checks) : HealthRow where
  serviceName := h.serviceName
  instanceID := h.instanceID
  exchange := nullIfEmpty h.exchange
  dataType := nullIfEmpty h.dataType
  status := h.status
  heartbeatAt := if isZero h.heartbeatAt then now else h.heartbeatAt
  lastSuccessAt := nullableTime h.lastSuccessAt
  lastErrorAt := nullableTime h.lastErrorAt
  errorMessage := nullIfEmpty h.errorMessage
  metrics := (ensureJSON h.metrics).jsonb
  exchange_ne := nullIfEmpty_ne _
  dataType_ne := nullIfEmpty_ne _
  exchange_lower := by
    intro e he
    unfold nullIfEmpty at he
    split at he
    · cases he
    · obtain rfl := Option.some.inj he
      exact hchecks.exchange
  status_mem := hchecks.status

end CollectorHealth

namespace HealthRow

def scope (r : HealthRow) : HealthScope :=
  ⟨r.serviceName, r.instanceID, r.exchange.getD "", r.dataType.getD ""⟩

/-- The `SET` of the update, for the report `new`. -/
def lay (new old : HealthRow) : HealthRow :=
  { old with
    status := new.status
    heartbeatAt := new.heartbeatAt
    lastSuccessAt := new.lastSuccessAt.or old.lastSuccessAt
    lastErrorAt := new.lastErrorAt.or old.lastErrorAt
    errorMessage := new.errorMessage
    metrics := new.metrics
    status_mem := new.status_mem }

theorem lay_scope (new old : HealthRow) : (lay new old).scope = old.scope := rfl

theorem lay_assoc (a b c : HealthRow) : lay a (lay b c) = lay (lay a b) c := by
  simp only [lay, Option.or_assoc]

theorem lay_self (a : HealthRow) : lay a a = a := by
  simp only [lay, Option.or_self]

theorem lay_below (a b : HealthRow) (h : a.scope = b.scope) : lay a (lay b a) = lay a b := by
  simp only [scope, HealthScope.mk.injEq] at h
  obtain ⟨hservice, hinstance, hexchange, hdataType⟩ := h
  have hexchange := eq_of_getD_eq a.exchange_ne b.exchange_ne hexchange
  have hdataType := eq_of_getD_eq a.dataType_ne b.dataType_ne hdataType
  have hor (x y : Option ℤ) : x.or (y.or x) = x.or y := by cases x <;> cases y <;> rfl
  simp only [lay, hservice, hinstance, hexchange, hdataType, hor]

end HealthRow

theorem CollectorHealth.scope_row (now : ℤ) (h : CollectorHealth) (hchecks : h.Checks) :
    (h.row now hchecks).scope = h.scope := by
  simp only [HealthRow.scope, CollectorHealth.row, CollectorHealth.scope, getD_nullIfEmpty]

abbrev HealthTable := Table HealthRow.scope

/-- `Upsert`, with no statement of another client in between. -/
def upsertCollectorHealth (now : ℤ) (h : CollectorHealth) (t : HealthTable) :
    Except String HealthTable :=
  if hchecks : h.Checks then
    let row := h.row now hchecks
    .ok (Board.put HealthRow.lay_scope (t.insertNew row) row)
  else .error "insert collector health: pq: new row violates check constraint"

/-- An update that finds the row just inserted changes nothing. -/
theorem find_upsertCollectorHealth {now : ℤ} {h : CollectorHealth} (hchecks : h.Checks)
    {t u : HealthTable} (hu : upsertCollectorHealth now h t = .ok u) (k : HealthScope) :
    u.find k = if h.scope = k then
      some ((t.find k).elim (h.row now hchecks) (HealthRow.lay (h.row now hchecks)))
      else t.find k := by
  rw [upsertCollectorHealth, dif_pos hchecks] at hu
  obtain rfl := Except.ok.inj hu
  rw [Board.find_put, Table.find_insertNew, CollectorHealth.scope_row]
  split
  · cases t.find k with
    | none => exact congrArg some (HealthRow.lay_self _)
    | some r => rfl
  · exact Option.or_none

end Aggregator.Repositories
