/-
  The audit table: what a dry run writes, and the row of a run.

  A run starts by writing its audit row as running and ends by an update of that
  row, whatever happened in between.

  * `runOnce_dryRun`: whatever store calls fail, a run all of whose policies are
    dry runs changes no table but `data_cleanup_runs`;
  * `cleanup_sameCleanupRuns`: the stages in between leave the audit row alone.
-/
import Aggregator.Retention.Frame

namespace Aggregator.Retention

open Aggregator.Go

/-! ## Dry runs -/

section
variable (faults : Faults) (opts : EngineOptions) {item : PlanItem}

/-- A dry run reads the window of the rollup and stops. -/
theorem rollupRows_dryRun (hdry : item.dryRun) : Effect (OnDB Eq) (rollupRows faults item) := by
  unfold rollupRows
  split
  · refine .bind (.tryCatch ?_ fun _ => .throw _) fun _ => effect_updateResult _
    exact effect_rollupBeforeDelete (fun _ => effect_call faults (changes_query fun _ => ⟨_, rfl⟩))
      fun h => by rw [hdry] at h; cases h
  · exact .pure _

/-- It lists the partitions it would drop, and deletes nothing. -/
theorem removeRows_dryRun (hdry : item.dryRun) :
    Effect (OnDB Eq) (removeRows faults opts item) := by
  refine .bind ?_ fun dropped => ?_
  · unfold dropPartitions
    split
    · refine .bind (effect_call faults (changes_query fun _ => ⟨_, rfl⟩)) fun ps => ?_
      refine .bind (effect_updateResult _) fun _ => ?_
      rw [if_neg (by simp [hdry])]
      exact .pure _
    · exact .pure _
  · rw [if_pos (by simp [hdry])]
    exact .pure _

theorem cleanup_dryRun (hdry : item.dryRun) : Effect (OnDB Eq) (cleanup faults opts item) :=
  .bind (effect_checkDiskPressure opts) fun _ =>
    .bind (effect_matchRows faults item) fun _ =>
    .bind (rollupRows_dryRun faults hdry) fun _ => removeRows_dryRun faults opts hdry

/-- A dry run of one item. -/
theorem runPlanItem_dryRun (hdry : item.dryRun) (db : DB) :
    OnlyCleanupRuns db (runPlanItem faults opts item db).2 := by
  refine runPlanItem_rel faults (fun _ _ h => h) opts item db fun s _ => ?_
  rw [← cleanup_dryRun faults opts hdry s]
  exact Std.Refl.refl s.db

end

theorem runOnce_dryRun (faults : ℕ → Faults) (opts : EngineOptions) (now : ℤ)
    {policies : Except String (List Policy)}
    (hdry : ∀ ps, policies = .ok ps → ∀ p ∈ ps, p.enabled → p.dryRun) (db : DB) :
    (runOnce faults opts now policies db).2.tables = db.tables ∧
      (runOnce faults opts now policies db).2.partitions = db.partitions ∧
      (runOnce faults opts now policies db).2.rollupRuns = db.rollupRuns := by
  have honly : OnlyCleanupRuns db (runOnce faults opts now policies db).2 := by
    refine runOnce_rel fun ps items hps hplan item hi f d _ => runPlanItem_dryRun f opts ?_ d
    obtain ⟨hmem, hen, spec, -, hitem⟩ := mem_plan hplan hi
    rw [hitem]
    exact hdry ps hps item.policy hmem hen
  exact ⟨honly.tables, honly.partitions, honly.rollupRuns⟩

/-- The seeded policy as it is seeded, a dry run, and a disabled one. -/
theorem runOnce_dryRun_seeded :
    let policies : List Policy :=
      [{ seededPolicy with dryRun := true }, { seededPolicy with id := 2, enabled := false }]
    (∀ ps, (.ok policies : Except String (List Policy)) = .ok ps →
      ∀ p ∈ ps, p.enabled → p.dryRun) ∧
    (runOnce (fun _ => noFaults) ⟨0, false⟩ (monthStart 2026 3) (.ok policies)
      januaryDB).2.tables = januaryDB.tables := by
  intro policies
  have hdry : ∀ ps, (.ok policies : Except String (List Policy)) = .ok ps →
      ∀ p ∈ ps, p.enabled → p.dryRun := by
    rintro ps h
    obtain rfl := Except.ok.inj h
    decide
  exact ⟨hdry, (runOnce_dryRun _ _ _ hdry _).1⟩

/-! ## The end of a run -/

/-- The database after `StartCleanupRun`. -/
def DB.started (db : DB) (item : PlanItem) : DB :=
  let new : CleanupRun :=
    ⟨cleanupRunKey item.policy item.cutoffTime, item.policy.id, item.policy.tableName, .running,
      item.dryRun, item.cutoffTime, 0, 0, none⟩
  { db with
    cleanupRuns := db.cleanupRuns.upsert new (CleanupRun.restart new)
      (CleanupRun.restart_runKey new) }

/-- The audit row of an item has one of some statuses. -/
def DB.Audited (db : DB) (item : PlanItem) (statuses : List RunStatus) : Prop :=
  ∃ r ∈ db.cleanupRuns.find (cleanupRunKey item.policy item.cutoffTime), r.status ∈ statuses

theorem DB.audited_started (db : DB) (item : PlanItem) :
    (db.started item).Audited item [.running] := by
  unfold Audited started
  dsimp only
  rw [Table.find_upsert, if_pos rfl]
  refine ⟨_, rfl, ?_⟩
  cases db.cleanupRuns.find (cleanupRunKey item.policy item.cutoffTime) <;>
    exact List.mem_singleton_self _

/-- The database after a `FinishCleanupRun`. -/
def DB.finished (db : DB) (item : PlanItem) (status : RunStatus) (result : CleanupResult)
    (message : String) : DB :=
  { db with
    cleanupRuns := db.cleanupRuns.update (·.runKey = cleanupRunKey item.policy item.cutoffTime)
      (CleanupRun.finish status result.rowsMatched result.rowsDeleted message)
      (CleanupRun.finish_runKey status result.rowsMatched result.rowsDeleted message) }

theorem DB.find_finished {db : DB} {item : PlanItem} {r : CleanupRun}
    (h : db.cleanupRuns.find (cleanupRunKey item.policy item.cutoffTime) = some r)
    (status : RunStatus) (result : CleanupResult) (message : String) :
    (db.finished item status result message).cleanupRuns.find
      (cleanupRunKey item.policy item.cutoffTime) =
        some (r.finish status result.rowsMatched result.rowsDeleted message) := by
  rw [finished, Table.find_update, h]
  simp [Table.find_key h]

def SameCleanupRuns (db db' : DB) : Prop := db'.cleanupRuns = db.cleanupRuns

/-- The stages of a run leave its audit row alone. -/
theorem cleanup_sameCleanupRuns (faults : Faults) (opts : EngineOptions) (item : PlanItem) :
    Effect (OnDB SameCleanupRuns) (cleanup faults opts item) := by
  refine effect_cleanup faults (fun _ _ h => h.cleanupRuns) opts
    (fun _ p _ db a db' h => ?_) fun n db a db' h => ?_
  · cases h; rfl
  · cases h; rfl

end Aggregator.Retention
