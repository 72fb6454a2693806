/-
  The retention engine (`internal/retention/engine.go`) and its rollup stage
  (`internal/retention/rollup.go`).

  A run of a plan item is a program over a `Session`: the database, the number
  of store calls made so far and the result being built.  Every store call can
  fail: `faults n` is the fault of call `n`, if any, and a fault reports an error
  whether or not the statement took effect.  A run under the per-table timeout is
  one whose calls fail from the deadline on.

  `runPlanItem_rel`, `runOnce_rel`: what holds of the changes each stage makes to
  the database, for a reflexive and transitive relation, holds of the whole run.
-/
import Aggregator.Lib.Effect
import Aggregator.Retention.Store

namespace Aggregator.Retention

open Aggregator.Go

structure EngineOptions where
  maxRowsPerRun : ℤ
  diskPressureCritical : Bool
deriving DecidableEq, Repr

structure CleanupResult where
  policyID : ℤ
  tableName : String
  intervalValue : String
  dryRun : Bool
  cutoffTime : ℤ
  rowsMatched : ℤ
  rowsDeleted : ℤ
  partitionsMatched : ℤ
  partitionsDropped : ℤ
  rollupRowsRead : ℤ
  rollupRowsWritten : ℤ
  status : Option RunStatus
  errorMessage : String
deriving DecidableEq, Repr

/-- The error of a store call, and whether its statement took effect. -/
structure Fault where
  message : String
  committed : Bool
deriving DecidableEq, Repr

abbrev Faults := ℕ → Option Fault

/-- No store call fails. -/
def noFaults : Faults := fun _ => none

structure Session where
  db : DB
  calls : ℕ
  result : CleanupResult

abbrev Exec (α : Type) := ExceptT String (StateM Session) α

/-- A store call: `wrap` is the text put before the error. -/
def call {α : Type} (faults : Faults) (wrap : String) (stmt : Statement α) : Exec α :=
  ExceptT.mk fun s =>
    let s' := { s with calls := s.calls + 1 }
    match stmt s.db, faults s.calls with
    | .error e, none => (.error (wrap ++ e), s')
    | .error _, some fault => (.error (wrap ++ fault.message), s')
    | .ok (a, db), none => (.ok a, { s' with db := db })
    | .ok (_, db), some fault =>
      (.error (wrap ++ fault.message), if fault.committed then { s' with db := db } else s')

theorem exec_call {α : Type} (faults : Faults) (wrap : String) (stmt : Statement α) (s : Session) :
    exec (call faults wrap stmt) s =
      match stmt s.db, faults s.calls with
      | .error e, none => (.error (wrap ++ e), { s with calls := s.calls + 1 })
      | .error _, some fault => (.error (wrap ++ fault.message), { s with calls := s.calls + 1 })
      | .ok (a, db), none => (.ok a, { s with db := db, calls := s.calls + 1 })
      | .ok (_, db), some fault =>
        (.error (wrap ++ fault.message),
          if fault.committed then { s with db := db, calls := s.calls + 1 }
          else { s with calls := s.calls + 1 }) := rfl

def updateResult (f : CleanupResult → CleanupResult) : Exec Unit :=
  ExceptT.mk fun s => (.ok (), { s with result := f s.result })

def getResult : Exec CleanupResult := ExceptT.mk fun s => (.ok s.result, s)

/-- `cutoff.UTC().Format("20060102T150405Z")`. -/
def formatCutoff (t : ℤ) : String :=
  let d := dateOfDay (t / day)
  let s := t % day / second
  padLeft 4 d.year ++ padLeft 2 d.month ++ padLeft 2 d.day ++ "T" ++
    padLeft 2 (s / 3600) ++ padLeft 2 (s / 60 % 60) ++ padLeft 2 (s % 60) ++ "Z"

def cleanupRunKey (policy : Policy) (cutoff : ℤ) : String :=
  let interval := if policy.intervalValue = "" then "all" else policy.intervalValue
  ":".intercalate
    ["cleanup", toString policy.id, policy.tableName, interval, formatCutoff cutoff]

def rollupRunKey (policy : Policy) (cutoff : ℤ) (targetInterval : String) : String :=
  ":".intercalate
    ["rollup", toString policy.id, policy.tableName, policy.intervalValue, targetInterval,
      formatCutoff cutoff]

/-! ## The rollup stage -/

/-- The part of `RollupBeforeDelete` that writes; returns the rows written. -/
def writeRollup (faults : Faults) (policy : Policy) (cutoff : ℤ) (spec : RollupSpec)
    (windowStart rowsRead : ℤ) : Exec ℤ := do
  let runKey := rollupRunKey policy cutoff spec.targetInterval
  let finish (status : RunStatus) (written : ℤ) (message : String) : Exec Unit :=
    call faults "finish rollup run: " (finishRollupRun runKey status rowsRead written message)
  call faults "start rollup run: " (startRollupRun runKey policy spec windowStart cutoff)
  let rowsWritten ← tryCatch
    (call faults s!"upsert kline rollup {spec.sourceInterval} to {spec.targetInterval}: "
      (upsertKlineRollup spec cutoff))
    fun e => do
      tryCatch (finish .failed 0 e) fun _ => pure ()
      throw e
  finish .succeeded rowsWritten ""
  return rowsWritten

/-- `RollupBeforeDelete`: the rows read and written. -/
def rollupBeforeDelete (faults : Faults) (policy : Policy) (cutoff : ℤ) (dryRun : Bool) :
    Exec (ℤ × ℤ) :=
  if policy.tableName ≠ "derivative_klines" then
    throw s!"rollup_before_delete is only supported for derivative_klines, got {policy.tableName}"
  else
    match klineRollup policy.intervalValue with
    | none => throw s!"no kline rollup target for interval {policy.intervalValue.quote}"
    | some spec => do
      let (windowStart, rowsRead) ←
        call faults "query kline rollup window: " (klineRollupWindow spec cutoff)
      if rowsRead = 0 || dryRun then return (rowsRead, 0)
      else
        let rowsWritten ← writeRollup faults policy cutoff spec windowStart rowsRead
        return (rowsRead, rowsWritten)

/-! ## The stages of `RunPlanItem` -/

def checkDiskPressure (opts : EngineOptions) : Exec Unit :=
  if opts.diskPressureCritical then throw "cleanup stopped: disk pressure is critical" else pure ()

def matchRows (faults : Faults) (item : PlanItem) : Exec Unit := do
  let rowsMatched ← call faults s!"count eligible rows for {item.policy.tableName}: "
    (countEligible item.policy item.cutoffTime)
  updateResult fun r => { r with rowsMatched := rowsMatched }

def rollupRows (faults : Faults) (item : PlanItem) : Exec Unit :=
  if item.policy.rollupBeforeDelete then do
    let (rowsRead, rowsWritten) ← tryCatch
      (rollupBeforeDelete faults item.policy item.cutoffTime item.dryRun)
      fun e => throw s!"rollup_before_delete failed: {e}"
    updateResult fun r =>
      { r with rollupRowsRead := rowsRead, rollupRowsWritten := rowsWritten }
  else pure ()

def qualifiedPartitionName (p : PartitionName) : String :=
  if p.1 = "" then p.2 else s!"{p.1}.{p.2}"

def dropOne (faults : Faults) (p : PartitionName) : Exec Unit := do
  call faults s!"drop partition {qualifiedPartitionName p}: " (dropPartition p)
  updateResult fun r => { r with partitionsDropped := r.partitionsDropped + 1 }

/-- Drops the eligible partitions; returns whether there were any to drop. -/
def dropPartitions (faults : Faults) (item : PlanItem) : Exec Bool :=
  if item.usePartitionDrop then do
    let partitions ← call faults s!"query partitions for {item.policy.tableName}: "
      (listEligiblePartitions item.policy item.cutoffTime)
    updateResult fun r => { r with partitionsMatched := partitions.length }
    if partitions.length > 0 && !item.dryRun then do
      partitions.forM (dropOne faults)
      return true
    else return false
  else return false

def effectiveMaxRows (policy : Policy) (optionMax : ℤ) : ℤ :=
  let maxRows := if 0 < optionMax ∧ optionMax < policy.maxRowsPerRun then optionMax
    else policy.maxRowsPerRun
  if maxRows ≤ 0 then policy.chunkSize else maxRows

/-- The loop of chunked deletes.  Every pass but the last deletes a whole chunk,
    so `maxRows` passes are enough (`deleteLoop_fuel`). -/
def deleteLoop (faults : Faults) (policy : Policy) (cutoff maxRows : ℤ) : ℕ → ℤ → Exec Unit
  | 0, _ => pure ()
  | fuel + 1, rowsDeleted =>
    if rowsDeleted < maxRows then
      let chunkSize := min policy.chunkSize (maxRows - rowsDeleted)
      if chunkSize ≤ 0 then pure ()
      else do
        let deleted ← call faults s!"delete chunk for {policy.tableName}: "
          (deleteChunk policy cutoff chunkSize)
        updateResult fun r => { r with rowsDeleted := r.rowsDeleted + deleted }
        if deleted = 0 || deleted < chunkSize then pure ()
        else deleteLoop faults policy cutoff maxRows fuel (rowsDeleted + deleted)
    else pure ()

def deleteChunks (faults : Faults) (opts : EngineOptions) (item : PlanItem) : Exec Unit :=
  let maxRows := effectiveMaxRows item.policy opts.maxRowsPerRun
  deleteLoop faults item.policy item.cutoffTime maxRows maxRows.toNat 0

/-- The two ways of removing rows; a dry run stops before the second. -/
def removeRows (faults : Faults) (opts : EngineOptions) (item : PlanItem) : Exec Unit := do
  let dropped ← dropPartitions faults item
  if dropped || item.dryRun then pure () else deleteChunks faults opts item

/-- Everything between the start and the end of the audited run. -/
def cleanup (faults : Faults) (opts : EngineOptions) (item : PlanItem) : Exec Unit := do
  checkDiskPressure opts
  matchRows faults item
  rollupRows faults item
  removeRows faults opts item

def emptyResult : CleanupResult := ⟨0, "", "", false, 0, 0, 0, 0, 0, 0, 0, none, ""⟩

def initialResult (item : PlanItem) : CleanupResult :=
  { emptyResult with
    policyID := item.policy.id
    tableName := item.policy.tableName
    intervalValue := item.policy.intervalValue
    dryRun := item.dryRun
    cutoffTime := item.cutoffTime
    status := some .succeeded }

def finishRun (faults : Faults) (item : PlanItem) (status : RunStatus) (message : String) :
    Exec Unit := do
  let result ← getResult
  call faults "finish cleanup run: "
    (finishCleanupRun (cleanupRunKey item.policy item.cutoffTime) status result.rowsMatched
      result.rowsDeleted message)

/-- The closure `fail`: an error of the final update is dropped. -/
def fail (faults : Faults) (item : PlanItem) (e : String) : Exec Unit := do
  updateResult fun r => { r with status := some .failed, errorMessage := e }
  tryCatch (finishRun faults item .failed e) fun _ => pure ()
  throw e

/-- `RunPlanItem` as a program over a session. -/
def planItemProgram (faults : Faults) (opts : EngineOptions) (item : PlanItem) : Exec Unit := do
  call faults "start cleanup run: "
    (startCleanupRun (cleanupRunKey item.policy item.cutoffTime) item.policy item.cutoffTime
      item.dryRun)
  tryCatch (cleanup faults opts item) (fail faults item)
  finishRun faults item .succeeded ""

/-- `Engine.RunPlanItem`: the result, the error if any, and the database. -/
def runPlanItem (faults : Faults) (opts : EngineOptions) (item : PlanItem) (db : DB) :
    (CleanupResult × Option String) × DB :=
  match validatePolicy item.policy with
  | .error e => ((emptyResult, some e), db)
  | .ok _ =>
    match exec (planItemProgram faults opts item) ⟨db, 0, initialResult item⟩ with
    | (.ok _, s) => ((s.result, none), s.db)
    | (.error e, s) => ((s.result, some e), s.db)

theorem runPlanItem_of_ok {faults : Faults} {opts : EngineOptions} {item : PlanItem} {db : DB}
    {spec : TableSpec} (hv : validatePolicy item.policy = .ok spec) {u : Unit} {s : Session}
    (h : exec (planItemProgram faults opts item) ⟨db, 0, initialResult item⟩ = (.ok u, s)) :
    runPlanItem faults opts item db = ((s.result, none), s.db) := by
  unfold runPlanItem
  rw [hv]
  dsimp only
  rw [h]

/-- The items of a plan one after the other, with the faults of each: their
    results, and the first error. -/
def runItems (opts : EngineOptions) :
    List (Faults × PlanItem) → DB → (List CleanupResult × Option String) × DB
  | [], db => (([], none), db)
  | (faults, item) :: items, db =>
    let one := runPlanItem faults opts item db
    let rest := runItems opts items one.2
    ((one.1.1 :: rest.1.1, one.1.2.or rest.1.2), rest.2)

theorem runItems_cons (opts : EngineOptions) (x : Faults × PlanItem)
    (items : List (Faults × PlanItem)) (db : DB) :
    (runItems opts (x :: items) db).2 =
      (runItems opts items (runPlanItem x.1 opts x.2 db).2).2 := rfl

/-- `Engine.RunOnce`: `policies` is what `ListEnabledPolicies` returns, `now` the
    reading of the clock the plan is made with, and `faults n` the faults of its
    item `n`. -/
def runOnce (faults : ℕ → Faults) (opts : EngineOptions) (now : ℤ)
    (policies : Except String (List Policy)) (db : DB) :
    (List CleanupResult × Option String) × DB :=
  match policies.bind (plan now) with
  | .error e => (([], some e), db)
  | .ok items => runItems opts ((List.range items.length).map faults |>.zip items) db

/-! ## Effects -/

/-- A relation between databases, of sessions. -/
def OnDB (R : DB → DB → Prop) (s t : Session) : Prop := R s.db t.db

instance (R : DB → DB → Prop) [Std.Refl R] : Std.Refl (OnDB R) := ⟨fun s => Std.Refl.refl s.db⟩

instance (R : DB → DB → Prop) [IsTrans DB R] : IsTrans Session (OnDB R) :=
  ⟨fun s t u h h' => IsTrans.trans s.db t.db u.db h h'⟩

/-- Every change the statement can make is in `R`. -/
def Changes {α : Type} (R : DB → DB → Prop) (stmt : Statement α) : Prop :=
  ∀ db a db', stmt db = .ok (a, db') → R db db'

/-- The two differ at most in the audit tables. -/
structure SameData (db db' : DB) : Prop where
  tables : db'.tables = db.tables
  partitions : db'.partitions = db.partitions
  route : db'.route = db.route

theorem SameData.symm {db db' : DB} (h : SameData db db') : SameData db' db :=
  ⟨h.1.symm, h.2.symm, h.3.symm⟩

instance : Std.Refl SameData := ⟨fun _ => ⟨rfl, rfl, rfl⟩⟩

instance : IsTrans DB SameData :=
  ⟨fun _ _ _ h h' => ⟨h'.1.trans h.1, h'.2.trans h.2, h'.3.trans h.3⟩⟩

/-- The two differ at most in `data_cleanup_runs`. -/
structure OnlyCleanupRuns (db db' : DB) : Prop where
  tables : db'.tables = db.tables
  partitions : db'.partitions = db.partitions
  route : db'.route = db.route
  rollupRuns : db'.rollupRuns = db.rollupRuns

theorem OnlyCleanupRuns.sameData {db db' : DB} (h : OnlyCleanupRuns db db') : SameData db db' :=
  ⟨h.tables, h.partitions, h.route⟩

instance : Std.Refl OnlyCleanupRuns := ⟨fun _ => ⟨rfl, rfl, rfl, rfl⟩⟩

instance : IsTrans DB OnlyCleanupRuns :=
  ⟨fun _ _ _ h h' => ⟨h'.1.trans h.1, h'.2.trans h.2, h'.3.trans h.3, h'.4.trans h.4⟩⟩

/-- The two differ at most in `data_rollup_runs`. -/
structure OnlyRollupRuns (db db' : DB) : Prop where
  tables : db'.tables = db.tables
  partitions : db'.partitions = db.partitions
  route : db'.route = db.route
  cleanupRuns : db'.cleanupRuns = db.cleanupRuns

theorem OnlyRollupRuns.sameData {db db' : DB} (h : OnlyRollupRuns db db') : SameData db db' :=
  ⟨h.tables, h.partitions, h.route⟩

/-- The tables of the two have the same children. -/
def SameChildren (db db' : DB) : Prop := db'.partitions = db.partitions

instance : Std.Refl SameChildren := ⟨fun _ => rfl⟩

instance : IsTrans DB SameChildren := ⟨fun _ _ _ h h' => Eq.trans h' h⟩

section
variable {α : Type} {R : DB → DB → Prop} [Std.Refl R] (faults : Faults)

/-- **The rule for a store call**, failed or not. -/
theorem effect_call {wrap : String} {stmt : Statement α} (h : Changes R stmt) :
    Effect (OnDB R) (call faults wrap stmt) := by
  intro s
  rcases hs : stmt s.db with e | ⟨a, db⟩
  · cases hf : faults s.calls <;> simp only [exec_call, hs, hf] <;> exact Std.Refl.refl s.db
  · cases hf : faults s.calls with
    | none => simp only [exec_call, hs, hf]; exact h _ _ _ hs
    | some fault =>
      simp only [exec_call, hs, hf]
      split
      · exact h _ _ _ hs
      · exact Std.Refl.refl s.db

theorem effect_updateResult (f : CleanupResult → CleanupResult) :
    Effect (OnDB R) (updateResult f) := fun s => Std.Refl.refl s.db

theorem effect_getResult : Effect (OnDB R) getResult := fun s => Std.Refl.refl s.db

omit faults in
theorem effect_checkDiskPressure (opts : EngineOptions) :
    Effect (OnDB R) (checkDiskPressure opts) := by
  unfold checkDiskPressure
  split
  · exact .throw _
  · exact .pure _

end

/-- A call that succeeded ran its statement. -/
theorem exec_call_ok {α : Type} {faults : Faults} {wrap : String} {stmt : Statement α}
    {s t : Session} {a : α} (h : exec (call faults wrap stmt) s = (.ok a, t)) :
    stmt s.db = .ok (a, t.db) := by
  rw [exec_call] at h
  split at h <;> simp only [Prod.mk.injEq, reduceCtorEq, false_and, Except.ok.injEq] at h
  obtain ⟨rfl, rfl⟩ := h
  assumption

/-- A listed partition is a child of the table that ends by the cutoff. -/
theorem mem_of_listed {faults : Faults} {wrap : String} {item : PlanItem} {s t : Session}
    {ps : List PartitionName} {p : PartitionName} (hp : p ∈ ps)
    (h : exec (call faults wrap (listEligiblePartitions item.policy item.cutoffTime)) s =
      (.ok ps, t)) :
    p ∈ s.db.partitions item.policy.tableName ∧
      eligiblePartition item.policy item.cutoffTime p := by
  have hs := exec_call_ok h
  simp only [listEligiblePartitions, Except.ok.injEq, Prod.mk.injEq] at hs
  rw [← hs.1] at hp
  exact List.mem_filter.1 hp

/-- A query changes nothing. -/
theorem changes_query {α : Type} {R : DB → DB → Prop} [Std.Refl R] {stmt : Statement α}
    (h : ∀ db, ∃ a, stmt db = .ok (a, db)) : Changes R stmt := by
  intro db a db' hs
  obtain ⟨b, hb⟩ := h db
  rw [hb, Except.ok.injEq, Prod.mk.injEq] at hs
  exact hs.2 ▸ Std.Refl.refl db

/-- The rollup statement is refused, so it changes nothing. -/
theorem changes_upsertKlineRollup {R : DB → DB → Prop} (spec : RollupSpec) (cutoff : ℤ) :
    Changes R (upsertKlineRollup spec cutoff) := by
  rw [upsertKlineRollup_eq]
  exact fun _ _ _ h => nomatch h

/-- **The rule for the rollup stage**: it reads, and writes unless it is a dry
    run. -/
theorem effect_rollupBeforeDelete {R : Session → Session → Prop} [Std.Refl R] [IsTrans Session R]
    {faults : Faults} {policy : Policy} {cutoff : ℤ} {dryRun : Bool}
    (hread : ∀ spec, Effect R
      (call faults "query kline rollup window: " (klineRollupWindow spec cutoff)))
    (hwrite : dryRun = false → ∀ spec windowStart rowsRead,
      Effect R (writeRollup faults policy cutoff spec windowStart rowsRead)) :
    Effect R (rollupBeforeDelete faults policy cutoff dryRun) := by
  unfold rollupBeforeDelete
  split
  · exact .throw _
  · split
    · exact .throw _
    · refine .bind (hread _) fun w => ?_
      obtain ⟨windowStart, rowsRead⟩ := w
      dsimp only
      by_cases hstop : rowsRead = 0 ∨ dryRun
      · rw [if_pos (by simpa using hstop)]
        exact .pure _
      · rw [if_neg (by simpa using hstop)]
        obtain ⟨-, hdry⟩ := not_or.1 hstop
        exact .bind (hwrite (by simpa using hdry) _ _ _) fun _ => .pure _

section
variable {R : DB → DB → Prop} [Std.Refl R] [IsTrans DB R] (faults : Faults)

theorem effect_matchRows (item : PlanItem) : Effect (OnDB R) (matchRows faults item) :=
  .bind (effect_call faults (changes_query fun _ => ⟨_, rfl⟩)) fun _ => effect_updateResult _

section
variable (hR : ∀ db db', OnlyCleanupRuns db db' → R db db')
include hR

theorem effect_finishRun (item : PlanItem) (status : RunStatus) (message : String) :
    Effect (OnDB R) (finishRun faults item status message) := by
  refine .bind effect_getResult fun _ => effect_call faults fun db a db' h => ?_
  cases h
  exact hR _ _ ⟨rfl, rfl, rfl, rfl⟩

theorem effect_fail (item : PlanItem) (e : String) : Effect (OnDB R) (fail faults item e) :=
  .bind (effect_updateResult _) fun _ =>
    .bind (.tryCatch (effect_finishRun faults hR item _ _) fun _ => .pure _) fun _ => .throw _

/-- **The rule for a run**: what `cleanup` does to the data is what the run
    does. -/
theorem runPlanItem_rel (opts : EngineOptions) (item : PlanItem) (db : DB)
    (h : ∀ s, OnlyCleanupRuns db s.db → R s.db (exec (cleanup faults opts item) s).2.db) :
    R db (runPlanItem faults opts item db).2 := by
  have hstart : Effect (OnDB OnlyCleanupRuns) (call faults "start cleanup run: "
      (startCleanupRun (cleanupRunKey item.policy item.cutoffTime) item.policy item.cutoffTime
        item.dryRun)) := by
    refine effect_call faults fun d a d' hs => ?_
    cases hs
    exact ⟨rfl, rfl, rfl, rfl⟩
  have hprog : OnDB R ⟨db, 0, initialResult item⟩
      (exec (planItemProgram faults opts item) ⟨db, 0, initialResult item⟩).2 := by
    have hs := hstart ⟨db, 0, initialResult item⟩
    refine Effect.bind_at (hR _ _ hs) fun _ s heq => ?_
    rw [heq] at hs
    exact Effect.bind_at (Effect.tryCatch_at (h s hs) fun e => effect_fail faults hR item e)
      fun _ t _ => effect_finishRun faults hR item _ _ t
  unfold runPlanItem
  split
  · exact Std.Refl.refl db
  · split <;> rename_i heq <;> rw [heq] at hprog <;> exact hprog

end

/-- **The rule for the removal of rows**, from one session: only children the
    table has there are dropped. -/
theorem removeRows_at (opts : EngineOptions) {item : PlanItem} {s : Session}
    (hdrop : item.usePartitionDrop → ∀ p ∈ s.db.partitions item.policy.tableName,
      eligiblePartition item.policy item.cutoffTime p → Changes R (dropPartition p))
    (hdelete : ∀ n, Changes R (deleteChunk item.policy item.cutoffTime n)) :
    OnDB R s (exec (removeRows faults opts item) s).2 := by
  have hparts : OnDB R s (exec (dropPartitions faults item) s).2 := by
    unfold dropPartitions
    split
    · rename_i huse
      refine Effect.bind_at
        (effect_call faults (changes_query fun _ => ⟨_, rfl⟩) s) ?_
      intro ps t hlist
      refine Effect.bind (effect_updateResult _) (fun _ => ?_) t
      split
      · refine .bind (.forM fun p hp => ?_) fun _ => .pure _
        obtain ⟨hmem, helig⟩ := mem_of_listed hp hlist
        exact .bind (effect_call faults (hdrop huse p hmem helig)) fun _ => effect_updateResult _
      · exact .pure _
    · exact Effect.pure _ s
  have hloop : ∀ maxRows fuel n,
      Effect (OnDB R) (deleteLoop faults item.policy item.cutoffTime maxRows fuel n) := by
    intro maxRows fuel
    induction fuel with
    | zero => exact fun _ => .pure _
    | succ fuel ih =>
      intro n
      unfold deleteLoop
      split
      · dsimp only
        split
        · exact .pure _
        · refine .bind (effect_call faults (hdelete _)) fun deleted => ?_
          refine .bind (effect_updateResult _) fun _ => ?_
          split
          · exact .pure _
          · exact ih _
      · exact .pure _
  refine Effect.bind_at hparts fun dropped t _ => ?_
  split
  · exact Effect.pure _ t
  · exact hloop _ _ _ t

theorem effect_removeRows (opts : EngineOptions) {item : PlanItem}
    (hdrop : item.usePartitionDrop → ∀ p, eligiblePartition item.policy item.cutoffTime p →
      Changes R (dropPartition p))
    (hdelete : ∀ n, Changes R (deleteChunk item.policy item.cutoffTime n)) :
    Effect (OnDB R) (removeRows faults opts item) :=
  fun _ => removeRows_at faults opts (fun huse p _ => hdrop huse p) hdelete

variable (hR : ∀ db db', OnlyRollupRuns db db' → R db db')
include hR

theorem effect_writeRollup (policy : Policy) (cutoff : ℤ) (spec : RollupSpec)
    (windowStart rowsRead : ℤ) :
    Effect (OnDB R) (writeRollup faults policy cutoff spec windowStart rowsRead) := by
  have hfinish : ∀ status written message, Effect (OnDB R)
      (call faults "finish rollup run: " (finishRollupRun
        (rollupRunKey policy cutoff spec.targetInterval) status rowsRead written message)) := by
    intro status written message
    refine effect_call faults fun db a db' h => ?_
    cases h
    exact hR _ _ ⟨rfl, rfl, rfl, rfl⟩
  refine .bind (effect_call faults fun db a db' h => ?_) fun _ => ?_
  · cases h
    exact hR _ _ ⟨rfl, rfl, rfl, rfl⟩
  refine .bind (.tryCatch (effect_call faults (changes_upsertKlineRollup spec cutoff)) fun e => ?_)
    fun _ => ?_
  · exact .bind (.tryCatch (hfinish _ _ _) fun _ => .pure _) fun _ => .throw _
  · exact .bind (hfinish _ _ _) fun _ => .pure _

theorem effect_rollupRows (item : PlanItem) : Effect (OnDB R) (rollupRows faults item) := by
  unfold rollupRows
  split
  · refine .bind (.tryCatch ?_ fun _ => .throw _) fun _ => effect_updateResult _
    exact effect_rollupBeforeDelete (fun _ => effect_call faults (changes_query fun _ => ⟨_, rfl⟩))
      fun _ spec _ _ => effect_writeRollup faults hR _ _ spec _ _
  · exact .pure _

/-- **The rule for the stages of a run.** -/
theorem effect_cleanup (opts : EngineOptions) {item : PlanItem}
    (hdrop : item.usePartitionDrop → ∀ p, eligiblePartition item.policy item.cutoffTime p →
      Changes R (dropPartition p))
    (hdelete : ∀ n, Changes R (deleteChunk item.policy item.cutoffTime n)) :
    Effect (OnDB R) (cleanup faults opts item) :=
  .bind (effect_checkDiskPressure opts) fun _ =>
    .bind (effect_matchRows faults item) fun _ =>
    .bind (effect_rollupRows faults hR item) fun _ => effect_removeRows faults opts hdrop hdelete

/-- **The rule for the stages of a run**, from one session: nothing before the
    removal of rows changes the children of a table. -/
theorem cleanup_at (opts : EngineOptions) {item : PlanItem} {s : Session}
    (hdrop : item.usePartitionDrop → ∀ p ∈ s.db.partitions item.policy.tableName,
      eligiblePartition item.policy item.cutoffTime p → Changes R (dropPartition p))
    (hdelete : ∀ n, Changes R (deleteChunk item.policy item.cutoffTime n)) :
    OnDB R s (exec (cleanup faults opts item) s).2 := by
  have hsame : ∀ d d', OnlyRollupRuns d d' → SameChildren d d' := fun _ _ h => h.partitions
  refine Effect.bind_at (effect_checkDiskPressure opts s) fun _ s₁ h₁ => ?_
  have hs₁ := effect_checkDiskPressure (R := SameChildren) opts s
  refine Effect.bind_at (effect_matchRows faults item s₁) fun _ s₂ h₂ => ?_
  have hs₂ := effect_matchRows (R := SameChildren) faults item s₁
  refine Effect.bind_at (effect_rollupRows faults hR item s₂) fun _ s₃ h₃ => ?_
  have hs₃ := effect_rollupRows faults hsame item s₂
  rw [h₁] at hs₁
  rw [h₂] at hs₂
  rw [h₃] at hs₃
  refine removeRows_at faults opts (fun huse p hp => hdrop huse p ?_) hdelete
  rwa [← congrFun hs₁ item.policy.tableName, ← congrFun hs₂ item.policy.tableName,
    ← congrFun hs₃ item.policy.tableName]

end

/-- **The rule for the items of a plan**, run on what the ones before left of
    `db`. -/
theorem runItems_rel {R : DB → DB → Prop} [Std.Refl R] [IsTrans DB R] {opts : EngineOptions}
    {db : DB} {items : List (Faults × PlanItem)}
    (h : ∀ x ∈ items, ∀ d, R db d → R d (runPlanItem x.1 opts x.2 d).2) :
    R db (runItems opts items db).2 := by
  have hrun : ∀ d, R db d → R d (runItems opts items d).2 := by
    induction items with
    | nil => exact fun d _ => Std.Refl.refl d
    | cons x items ih =>
      intro d hd
      have hone := h x List.mem_cons_self d hd
      have hrest := ih (fun y hy => h y (List.mem_cons_of_mem _ hy)) _
        (IsTrans.trans _ _ _ hd hone)
      rw [runItems_cons]
      exact IsTrans.trans _ _ _ hone hrest
  exact hrun db (Std.Refl.refl db)

/-- **The rule for a whole run.** -/
theorem runOnce_rel {R : DB → DB → Prop} [Std.Refl R] [IsTrans DB R] {faults : ℕ → Faults}
    {opts : EngineOptions} {now : ℤ} {policies : Except String (List Policy)} {db : DB}
    (h : ∀ ps items, policies = .ok ps → plan now ps = .ok items → ∀ item ∈ items, ∀ f d,
      R db d → R d (runPlanItem f opts item d).2) :
    R db (runOnce faults opts now policies db).2 := by
  unfold runOnce
  cases hplan : policies.bind (plan now) with
  | error e => exact Std.Refl.refl db
  | ok items =>
    obtain ⟨ps, hps, hitems⟩ := bind_eq_ok (m := policies) hplan
    exact runItems_rel fun x hx d hd => h ps items hps hitems x.2 (List.of_mem_zip hx).2 x.1 d hd

/-- More fuel than the rows that may still be deleted changes nothing. -/
theorem deleteLoop_fuel (faults : Faults) (policy : Policy) (cutoff maxRows : ℤ) {fuel : ℕ} {n : ℤ}
    (h : (maxRows - n).toNat ≤ fuel) (k : ℕ) :
    deleteLoop faults policy cutoff maxRows (fuel + k) n =
      deleteLoop faults policy cutoff maxRows fuel n := by
  induction fuel generalizing n with
  | zero =>
    have hn : ¬n < maxRows := by omega
    cases k <;> simp [deleteLoop, hn]
  | succ fuel ih =>
    rw [Nat.succ_add_eq_add_succ, Nat.add_succ]
    simp only [deleteLoop]
    by_cases hn : n < maxRows
    · simp only [hn, ↓reduceIte]
      by_cases hc : min policy.chunkSize (maxRows - n) ≤ 0
      · simp only [hc, ↓reduceIte]
      · simp only [hc, ↓reduceIte]
        congr 1; funext deleted; congr 1; funext _
        by_cases hd : deleted = 0 ∨ deleted < min policy.chunkSize (maxRows - n)
        · rw [if_pos (by simpa using hd), if_pos (by simpa using hd)]
        · -- a pass that goes on has deleted at least one row
          rw [if_neg (by simpa using hd), if_neg (by simpa using hd)]
          exact ih (by omega)
    · simp only [hn, ↓reduceIte]

/-! ## When a rollup stage goes through -/

/-- The policy has a rollup, and there is no closed candle of its interval before the
    cutoff: the stage then ends before the statement that is refused. -/
def rollupIdle (policy : Policy) (cutoff : ℤ) (db : DB) : Prop :=
  policy.tableName = "derivative_klines" ∧ ∃ spec ∈ klineRollup policy.intervalValue,
    spec.eligible cutoff (db.tables "derivative_klines") = []

instance (policy : Policy) (cutoff : ℤ) (db : DB) : Decidable (rollupIdle policy cutoff db) :=
  inferInstanceAs (Decidable (_ ∧ _))

/-- A rollup that comes to its statement fails. -/
theorem writeRollup_ne_ok {faults : Faults} {policy : Policy} {cutoff : ℤ} {spec : RollupSpec}
    {windowStart rowsRead n : ℤ} {s t : Session} :
    exec (writeRollup faults policy cutoff spec windowStart rowsRead) s ≠ (.ok n, t) := by
  intro h
  obtain ⟨_, s₁, -, h⟩ := exec_bind_eq_ok h
  obtain ⟨w, s₂, hup, -⟩ := exec_bind_eq_ok h
  have hstmt := exec_call_ok (exec_tryCatch_eq_ok hup fun e u hthrow => by
    obtain ⟨_, u', -, hthrow⟩ := exec_bind_eq_ok hthrow
    cases hthrow)
  cases hstmt

/-- A rollup stage that succeeds had nothing to do. -/
theorem rollupIdle_of_ok {faults : Faults} {item : PlanItem} {s t : Session} {u : Unit}
    (hroll : item.policy.rollupBeforeDelete) (hdry : item.dryRun = false)
    (h : exec (rollupRows faults item) s = (.ok u, t)) :
    rollupIdle item.policy item.cutoffTime s.db := by
  rw [rollupRows, if_pos hroll] at h
  obtain ⟨w, s₁, h, -⟩ := exec_bind_eq_ok h
  replace h := exec_tryCatch_eq_ok h fun e u h' => by cases h'
  rw [rollupBeforeDelete] at h
  by_cases hname : item.policy.tableName = "derivative_klines"
  · rw [if_neg (not_not.2 hname)] at h
    cases hspec : klineRollup item.policy.intervalValue with
    | none => rw [hspec] at h; cases h
    | some spec =>
      refine ⟨hname, spec, hspec, ?_⟩
      rw [hspec] at h
      obtain ⟨⟨windowStart, rowsRead⟩, s₂, hwin, h⟩ := exec_bind_eq_ok h
      have hread := exec_call_ok hwin
      simp only [klineRollupWindow, Except.ok.injEq, Prod.mk.injEq] at hread
      obtain ⟨⟨-, hlen⟩, -⟩ := hread
      dsimp only at h
      by_cases hnil : rowsRead = 0
      · exact List.length_eq_zero_iff.1 (by omega)
      · rw [if_neg (by simpa [hdry] using hnil)] at h
        obtain ⟨n, s₃, hw, -⟩ := exec_bind_eq_ok h
        exact absurd hw writeRollup_ne_ok
  · rw [if_pos hname] at h; cases h

/-! ## Runs without faults -/

theorem exec_call_noFaults {α : Type} {wrap : String} {stmt : Statement α} {s : Session} {a : α}
    {db : DB} (h : stmt s.db = .ok (a, db)) :
    exec (call noFaults wrap stmt) s = (.ok a, { s with db := db, calls := s.calls + 1 }) := by
  rw [exec_call, h]; rfl

/-- A call returns what its statement does. -/
theorem returns_call {α : Type} {wrap : String} {stmt : Statement α} {s : Session} {a : α}
    {db : DB} {Q : α → DB → Prop} (h : stmt s.db = .ok (a, db)) (hQ : Q a db) :
    Returns (call noFaults wrap stmt) s fun a t => Q a t.db :=
  ⟨a, _, exec_call_noFaults h, hQ⟩

theorem returns_updateResult (f : CleanupResult → CleanupResult) (s : Session) :
    Returns (updateResult f) s fun _ t =>
      t.db = s.db ∧ t.result = f s.result ∧ t.calls = s.calls :=
  ⟨(), _, rfl, rfl, rfl, rfl⟩

theorem checkDiskPressure_ok {opts : EngineOptions} (h : opts.diskPressureCritical = false)
    (s : Session) : Returns (checkDiskPressure opts) s fun _ t => t = s := by
  rw [checkDiskPressure, h]
  exact .pure rfl

/-- Without faults the run changes the data as `cleanup` does. -/
theorem runPlanItem_noFaults (opts : EngineOptions) {item : PlanItem} {spec : TableSpec}
    (hv : validatePolicy item.policy = .ok spec) (db : DB) :
    ∃ s, SameData db s.db ∧
      SameData (exec (cleanup noFaults opts item) s).2.db (runPlanItem noFaults opts item db).2 := by
  obtain ⟨db₁, hdb₁, hsame⟩ : ∃ db₁, startCleanupRun (cleanupRunKey item.policy item.cutoffTime)
      item.policy item.cutoffTime item.dryRun db = .ok ((), db₁) ∧ SameData db db₁ :=
    ⟨_, rfl, ⟨rfl, rfl, rfl⟩⟩
  set s : Session := ⟨db₁, 1, initialResult item⟩
  have hrest : SameData (exec (cleanup noFaults opts item) s).2.db
      (exec (planItemProgram noFaults opts item) ⟨db, 0, initialResult item⟩).2.db := by
    rw [planItemProgram, exec_bind_ok (exec_call_noFaults hdb₁)]
    have hfail : SameData (exec (cleanup noFaults opts item) s).2.db
        (exec (tryCatch (cleanup noFaults opts item) (fail noFaults item)) s).2.db :=
      Effect.after_tryCatch (R := OnDB SameData) s
        fun e => effect_fail noFaults (fun _ _ h => h.sameData) item e
    exact IsTrans.trans _ _ _ hfail (Effect.after_bind (R := OnDB SameData) s fun _ =>
      effect_finishRun noFaults (fun _ _ h => h.sameData) item _ _)
  refine ⟨s, hsame, ?_⟩
  unfold runPlanItem
  rw [hv]
  dsimp only
  split <;> rename_i heq <;> rw [heq] at hrest <;> exact hrest

theorem matchRows_noFaults (item : PlanItem) (s : Session) :
    Returns (matchRows noFaults item) s fun _ t =>
      t.db = s.db ∧ t.result.rowsDeleted = s.result.rowsDeleted :=
  ⟨(), _, rfl, rfl, rfl⟩

/-- A rollup stage that has nothing to do leaves everything as it is. -/
theorem rollupRows_noFaults {item : PlanItem} {s : Session}
    (hidle : item.policy.rollupBeforeDelete → rollupIdle item.policy item.cutoffTime s.db) :
    Returns (rollupRows noFaults item) s fun _ t =>
      t.db = s.db ∧ t.result.rowsDeleted = s.result.rowsDeleted := by
  by_cases hroll : item.policy.rollupBeforeDelete
  · obtain ⟨hname, spec, hspec, hnil⟩ := hidle hroll
    have hread : exec (rollupBeforeDelete noFaults item.policy item.cutoffTime item.dryRun) s =
        (.ok (0, 0), { s with calls := s.calls + 1 }) := by
      rw [rollupBeforeDelete, if_neg (not_not.2 hname), hspec]
      dsimp only
      rw [exec_bind_ok (exec_call_noFaults rfl), hnil]
      rfl
    rw [rollupRows, if_pos hroll]
    refine .bind (P := fun _ t => t.db = s.db ∧ t.result = s.result)
      (.tryCatch ⟨_, _, hread, rfl, rfl⟩) fun w t ht => ?_
    exact (returns_updateResult _ t).mono fun _ u hu =>
      ⟨hu.1.trans ht.1, by rw [hu.2.1, ht.2]⟩
  · rw [rollupRows, if_neg hroll]
    exact .pure ⟨rfl, rfl⟩

/-- Dropping a list of children removes exactly their rows. -/
theorem dropAll_noFaults (ps : List PartitionName) (s : Session) :
    Returns (ps.forM (dropOne noFaults)) s fun _ t => ∀ name r,
      r ∈ t.db.tables name ↔ r ∈ s.db.tables name ∧ ∀ p ∈ ps, r.partition ≠ some p := by
  induction ps generalizing s with
  | nil => exact .pure (by simp)
  | cons p ps ih =>
    have hone : Returns (dropOne noFaults p) s fun _ t => ∀ name r,
        r ∈ t.db.tables name ↔ r ∈ s.db.tables name ∧ r.partition ≠ some p := by
      refine .bind (returns_call (Q := fun _ db => ∀ name r,
        r ∈ db.tables name ↔ r ∈ s.db.tables name ∧ r.partition ≠ some p) rfl ?_) fun _ t ht => ?_
      · intro name r
        simp [Table.mem_delete]
      · exact (returns_updateResult _ t).mono fun _ u hu => hu.1 ▸ ht
    refine .bind hone fun _ t ht => (ih t).mono fun _ u hu => ?_
    intro name r
    rw [hu, ht, List.forall_mem_cons, and_assoc]

/-- Where a child ends by the cutoff, a run that drops partitions removes exactly
    the rows of such children. -/
theorem removeRows_noFaults {opts : EngineOptions} {item : PlanItem} {s : Session}
    (huse : item.usePartitionDrop) (hdry : item.dryRun = false) {p : PartitionName}
    (hp : p ∈ s.db.partitions item.policy.tableName)
    (he : eligiblePartition item.policy item.cutoffTime p) :
    Returns (removeRows noFaults opts item) s fun _ t => ∀ name r,
      r ∈ t.db.tables name ↔ r ∈ s.db.tables name ∧
        ∀ q ∈ (s.db.partitions item.policy.tableName).filter
          (eligiblePartition item.policy item.cutoffTime), r.partition ≠ some q := by
  set ps := (s.db.partitions item.policy.tableName).filter
    (eligiblePartition item.policy item.cutoffTime) with hps
  have hpos : 0 < ps.length := List.length_pos_of_mem (List.mem_filter.2 ⟨hp, he⟩)
  have hdrop : Returns (dropPartitions noFaults item) s fun dropped t => dropped = true ∧
      ∀ name r, r ∈ t.db.tables name ↔
        r ∈ s.db.tables name ∧ ∀ q ∈ ps, r.partition ≠ some q := by
    rw [dropPartitions, if_pos huse]
    refine .bind (returns_call (Q := fun qs db => qs = ps ∧ db = s.db) rfl ⟨rfl, rfl⟩)
      fun qs t ht => ?_
    obtain ⟨rfl, ht⟩ := ht
    refine .bind (returns_updateResult _ t) fun _ u hu => ?_
    rw [if_pos (by simp [hpos, hdry])]
    refine .bind (dropAll_noFaults _ u) fun _ v hv => .pure ⟨rfl, ?_⟩
    rwa [hu.1, ht] at hv
  refine .bind hdrop fun dropped t ht => ?_
  obtain ⟨rfl, ht⟩ := ht
  exact .pure ht

end Aggregator.Retention
