/-
  The deadline of a run.

  A run starts by writing its audit row as running and ends by an update of that
  row.  Both statements and all store calls in between go through the context of
  the run, and the context has a deadline.

  * `Cut`: under faults a program does what it does without them, or one of them
    ends it, after no more store calls;
  * `calls_cleanup`: the number of store calls of a run, from the rows, the
    partitions and the limits;
  * `runPlanItem_finished_iff`: whatever store calls fail, a started run is finished
    in the audit table, exactly when the deadline comes after that many calls;
  * `deadline_leaves_running`: a deadline between the start and the count of the
    rows leaves the audit row running.
-/
import Aggregator.Retention.Chunks

namespace Aggregator.Retention

open Aggregator.Go

/-! ## Programs under faults -/

/-- Under faults the program does what it does without them, or a fault ends it,
    after no more calls. -/
structure Cut {α : Type} (m : Faults → Exec α) : Prop where
  mono : ∀ faults s, s.calls ≤ (exec (m faults) s).2.calls
  cut : ∀ faults s, exec (m faults) s = exec (m noFaults) s ∨
    ∃ e t, exec (m faults) s = (.error e, t) ∧ t.calls ≤ (exec (m noFaults) s).2.calls ∧
      ∃ n, s.calls ≤ n ∧ n < t.calls ∧ faults n ≠ none

namespace Cut
variable {α β : Type}

/-- A program that makes no store call. -/
theorem of_free {m : Exec α} (h : ∀ s, (exec m s).2.calls = s.calls) : Cut fun _ => m :=
  ⟨fun _ s => (h s).ge, fun _ _ => .inl rfl⟩

theorem pure (a : α) : Cut fun _ => (Pure.pure a : Exec α) := of_free fun _ => rfl

theorem throw (e : String) : Cut fun _ => (MonadExcept.throw e : Exec α) := of_free fun _ => rfl

theorem updateResult (f : CleanupResult → CleanupResult) :
    Cut fun _ => Retention.updateResult f := of_free fun _ => rfl

/-- **The sequencing rule.** -/
theorem bind {m : Faults → Exec α} {f : Faults → α → Exec β} (hm : Cut m)
    (hf : ∀ a, Cut fun faults => f faults a) : Cut fun faults => m faults >>= f faults := by
  have hafter : ∀ faults s, (exec (m faults) s).2.calls ≤
      (exec (m faults >>= f faults) s).2.calls := by
    intro faults s
    rcases h : exec (m faults) s with ⟨e | a, t⟩
    · rw [exec_bind_error h]
    · rw [exec_bind_ok h]
      exact (hf a).mono faults t
  refine ⟨fun faults s => (hm.mono faults s).trans (hafter faults s), fun faults s => ?_⟩
  rcases hm.cut faults s with heq | ⟨e, t, he, hle, n, hn⟩
  · rcases h : exec (m noFaults) s with ⟨e | a, t⟩
    · exact .inl (by rw [exec_bind_error (heq.trans h), exec_bind_error h])
    · rw [exec_bind_ok (heq.trans h), exec_bind_ok h]
      rcases (hf a).cut faults t with heq' | ⟨e, u, he, hle, n, hn, hu⟩
      · exact .inl heq'
      · have hst := hm.mono noFaults s
        rw [h] at hst
        exact .inr ⟨e, u, he, hle, n, hst.trans hn, hu⟩
  · exact .inr ⟨e, t, exec_bind_error he, hle.trans (hafter noFaults s), n, hn⟩

/-- A handler that only rewrites the error. -/
theorem wrap {m : Faults → Exec α} (hm : Cut m) (g : String → String) :
    Cut fun faults => tryCatch (m faults) fun e => MonadExcept.throw (g e) := by
  have hcalls : ∀ faults s, (exec (tryCatch (m faults) fun e => MonadExcept.throw (g e)) s).2 =
      (exec (m faults) s).2 := by
    intro faults s
    rw [exec_tryCatch]
    rcases exec (m faults) s with ⟨e | a, t⟩ <;> rfl
  refine ⟨fun faults s => by rw [hcalls]; exact hm.mono faults s, fun faults s => ?_⟩
  rw [hcalls]
  rcases hm.cut faults s with heq | ⟨e, t, he, hrest⟩
  · exact .inl (by rw [exec_tryCatch, exec_tryCatch, heq])
  · exact .inr ⟨g e, t, by rw [exec_tryCatch, he]; rfl, hrest⟩

theorem forM {f : Faults → α → Exec PUnit} (l : List α) (hf : ∀ a, Cut fun faults => f faults a) :
    Cut fun faults => l.forM (f faults) := by
  induction l with
  | nil => exact pure _
  | cons a l ih => exact bind (hf a) fun _ => ih

/-- The calls under faults are at most those without. -/
theorem calls_le {m : Faults → Exec α} (hm : Cut m) (faults : Faults) (s : Session) :
    (exec (m faults) s).2.calls ≤ (exec (m noFaults) s).2.calls := by
  rcases hm.cut faults s with heq | ⟨e, t, he, hle, -⟩
  · rw [heq]
  · rw [he]
    exact hle

end Cut

section
variable {α : Type} {faults : Faults} (wrap : String) (stmt : Statement α) {s : Session}

theorem calls_call : (exec (call faults wrap stmt) s).2.calls = s.calls + 1 := by
  rw [exec_call]
  rcases stmt s.db with e | ⟨a, db⟩ <;> rcases faults s.calls with _ | fault <;> dsimp only
  split <;> rfl

theorem exec_call_of_none (h : faults s.calls = none) :
    exec (call faults wrap stmt) s = exec (call noFaults wrap stmt) s := by
  rw [exec_call, exec_call, h]
  rfl

/-- A fault is an error. -/
theorem exec_call_of_fault (h : faults s.calls ≠ none) :
    ∃ e t, exec (call faults wrap stmt) s = (.error e, t) := by
  rw [exec_call]
  rcases hf : faults s.calls with _ | fault
  · exact absurd hf h
  · rcases stmt s.db with e | ⟨a, db⟩ <;> exact ⟨_, _, rfl⟩

end

theorem cut_call {α : Type} (wrap : String) (stmt : Statement α) :
    Cut fun faults => call faults wrap stmt := by
  refine ⟨fun faults s => by rw [calls_call]; omega, fun faults s => ?_⟩
  by_cases h : faults s.calls = none
  · exact .inl (exec_call_of_none wrap stmt h)
  · obtain ⟨e, t, he⟩ := exec_call_of_fault wrap stmt h
    have ht : t.calls = s.calls + 1 := by
      rw [← calls_call wrap stmt, he]
    exact .inr ⟨e, t, he, by rw [calls_call, ht], s.calls, le_rfl, by omega, h⟩

/-! ## The stages under faults -/

section
variable {α : Type} {policy : Policy} {cutoff : ℤ} {spec : RollupSpec}

/-- The rollup statement is an error, fault or not. -/
theorem exec_call_upsert (spec : RollupSpec) (cutoff : ℤ) (faults : Faults) (wrap : String)
    (s : Session) :
    ∃ e, exec (call faults wrap (upsertKlineRollup spec cutoff)) s =
      (.error e, { s with calls := s.calls + 1 }) := by
  rw [exec_call, upsertKlineRollup_eq]
  cases faults s.calls <;> exact ⟨_, rfl⟩

/-- The handler of the rollup statement: the outcome of its call is dropped. -/
def reportRollup (wrap : String) (stmt : String → Statement Unit) (faults : Faults) (e : String) :
    Exec ℤ := do
  tryCatch (call faults wrap (stmt e)) fun _ => pure ()
  throw e

theorem exec_reportRollup (wrap : String) (stmt : String → Statement Unit) (faults : Faults)
    (e : String) (s : Session) :
    exec (reportRollup wrap stmt faults e) s =
      (.error e, (exec (call faults wrap (stmt e)) s).2) := by
  rw [reportRollup, exec_bind, exec_tryCatch]
  rcases exec (call faults wrap (stmt e)) s with ⟨e' | u, t⟩ <;> rfl

/-- The rollup statement and its handler: two calls, whatever fails. -/
theorem cut_refused (wrap wrap' : String) (stmt : String → Statement Unit) :
    Cut fun faults => tryCatch (call faults wrap (upsertKlineRollup spec cutoff))
      (reportRollup wrap' stmt faults) := by
  have hexec : ∀ faults s e t,
      exec (call faults wrap (upsertKlineRollup spec cutoff)) s = (.error e, t) →
      exec (tryCatch (call faults wrap (upsertKlineRollup spec cutoff))
        (reportRollup wrap' stmt faults)) s = (.error e, (exec (call faults wrap' (stmt e)) t).2) := by
    intro faults s e t h
    rw [exec_tryCatch, h]
    exact exec_reportRollup wrap' stmt faults e t
  have hcalls : ∀ faults s, (exec (tryCatch (call faults wrap (upsertKlineRollup spec cutoff))
      (reportRollup wrap' stmt faults)) s).2.calls = s.calls + 2 := by
    intro faults s
    obtain ⟨e, he⟩ := exec_call_upsert spec cutoff faults wrap s
    rw [hexec faults s e _ he]
    exact calls_call ..
  refine ⟨fun faults s => by rw [hcalls]; omega, fun faults s => ?_⟩
  obtain ⟨e, he⟩ := exec_call_upsert spec cutoff faults wrap s
  have hend := hcalls faults s
  rw [hexec faults s e _ he] at hend
  dsimp only at hend
  by_cases h₀ : faults s.calls = none
  · by_cases h₁ : faults (s.calls + 1) = none
    · have he' := (exec_call_of_none _ _ h₀).symm.trans he
      rw [hexec faults s e _ he, hexec noFaults s e _ he']
      exact .inl (by rw [exec_call_of_none _ _ h₁])
    · exact .inr ⟨e, _, hexec faults s e _ he, by rw [hcalls, hend], s.calls + 1, by omega,
        by omega, h₁⟩
  · exact .inr ⟨e, _, hexec faults s e _ he, by rw [hcalls, hend], s.calls, le_rfl, by omega, h₀⟩

theorem cut_writeRollup (windowStart rowsRead : ℤ) :
    Cut fun faults => writeRollup faults policy cutoff spec windowStart rowsRead :=
  .bind (cut_call _ _) fun _ =>
    .bind (cut_refused _ _ fun e => finishRollupRun _ .failed rowsRead 0 e) fun _ =>
    .bind (cut_call _ _) fun _ => .pure _

end

section
variable (opts : EngineOptions) (item : PlanItem)

theorem cut_rollupBeforeDelete :
    Cut fun faults => rollupBeforeDelete faults item.policy item.cutoffTime item.dryRun := by
  unfold rollupBeforeDelete
  split
  · exact .throw _
  · split
    · exact .throw _
    · refine .bind (cut_call _ _) fun w => ?_
      obtain ⟨windowStart, rowsRead⟩ := w
      dsimp only
      split
      · exact .pure _
      · exact .bind (cut_writeRollup _ _) fun _ => .pure _

theorem cut_rollupRows : Cut fun faults => rollupRows faults item := by
  unfold rollupRows
  split
  · exact .bind (.wrap (cut_rollupBeforeDelete item) _) fun _ => .updateResult _
  · exact .pure _

theorem cut_dropPartitions : Cut fun faults => dropPartitions faults item := by
  unfold dropPartitions
  split
  · refine .bind (cut_call _ _) fun ps => .bind (.updateResult _) fun _ => ?_
    split
    · exact .bind (.forM ps fun p => .bind (cut_call _ _) fun _ => .updateResult _) fun _ => .pure _
    · exact .pure _
  · exact .pure _

theorem cut_deleteLoop (maxRows : ℤ) (fuel : ℕ) (n : ℤ) :
    Cut fun faults => deleteLoop faults item.policy item.cutoffTime maxRows fuel n := by
  induction fuel generalizing n with
  | zero => exact .pure _
  | succ fuel ih =>
    simp only [deleteLoop]
    split
    · split
      · exact .pure _
      · refine .bind (cut_call _ _) fun deleted => .bind (.updateResult _) fun _ => ?_
        split
        · exact .pure _
        · exact ih _
    · exact .pure _

theorem cut_cleanup : Cut fun faults => cleanup faults opts item := by
  refine .bind ?_ fun _ => .bind ?_ fun _ => .bind (cut_rollupRows item) fun _ =>
    .bind (cut_dropPartitions item) fun dropped => ?_
  · refine .of_free fun s => ?_
    unfold checkDiskPressure
    split <;> rfl
  · exact .bind (cut_call _ _) fun _ => .updateResult _
  · split
    · exact .pure _
    · exact cut_deleteLoop item _ _ _

end

/-! ## The calls of a run without faults -/

/-- The calls of the rollup stage, and whether the run goes on after it: the window,
    and then the start, the refused statement and the end of a rollup run. -/
def rollupCalls (item : PlanItem) (db : DB) : ℕ × Bool :=
  if item.policy.rollupBeforeDelete then
    if item.policy.tableName ≠ "derivative_klines" then (0, false)
    else
      match klineRollup item.policy.intervalValue with
      | none => (0, false)
      | some spec =>
        if (spec.eligible item.cutoffTime (db.tables "derivative_klines")).length = 0 ∨ item.dryRun
        then (1, true) else (4, false)
  else (0, true)

/-- The children a run may drop. -/
def droppable (item : PlanItem) (db : DB) : List PartitionName :=
  (db.partitions item.policy.tableName).filter (eligiblePartition item.policy item.cutoffTime)

/-- The calls that remove rows: the list of children, and one call for each of them
    or for each chunk. -/
def removalCalls (opts : EngineOptions) (item : PlanItem) (db : DB) : ℕ :=
  (if item.usePartitionDrop then 1 else 0) +
    if item.dryRun then 0
    else if item.usePartitionDrop ∧ 0 < (droppable item db).length then (droppable item db).length
    else chunkCalls item.policy.chunkSize
      (eligibleRows item.policy item.cutoffTime (db.tables item.policy.tableName)).length
      (effectiveMaxRows item.policy opts.maxRowsPerRun).toNat

/-- All calls between the start and the end of the audited run. -/
def cleanupCalls (opts : EngineOptions) (item : PlanItem) (db : DB) : ℕ :=
  if opts.diskPressureCritical then 0
  else 1 + (rollupCalls item db).1 +
    if (rollupCalls item db).2 then removalCalls opts item db else 0

/-- All calls of a run. -/
def callsNeeded (opts : EngineOptions) (item : PlanItem) (db : DB) : ℕ :=
  cleanupCalls opts item db + 2

section
variable {opts : EngineOptions} {item : PlanItem} {s : Session}

theorem removalCalls_congr {db db' : DB} (h : SameData db db') :
    removalCalls opts item db' = removalCalls opts item db := by
  have hdrop : droppable item db' = droppable item db := by rw [droppable, h.partitions]; rfl
  rw [removalCalls, hdrop, h.tables]
  rfl

/-- A rollup that comes to its statement makes three more calls. -/
theorem calls_writeRollup (policy : Policy) (cutoff : ℤ) (spec : RollupSpec)
    (windowStart rowsRead : ℤ) (s : Session) :
    ∃ e t, exec (writeRollup noFaults policy cutoff spec windowStart rowsRead) s = (.error e, t) ∧
      t.calls = s.calls + 3 :=
  ⟨_, _, rfl, rfl⟩

theorem calls_rollupBeforeDelete {spec : RollupSpec}
    (hname : item.policy.tableName = "derivative_klines")
    (hspec : klineRollup item.policy.intervalValue = some spec) (s : Session) :
    ∃ r t, exec (rollupBeforeDelete noFaults item.policy item.cutoffTime item.dryRun) s = (r, t) ∧
      (r.isOk, t.calls) =
        if (spec.eligible item.cutoffTime (s.db.tables "derivative_klines")).length = 0 ∨ item.dryRun
        then (true, s.calls + 1) else (false, s.calls + 4) := by
  rw [rollupBeforeDelete, if_neg (not_not.2 hname), hspec]
  dsimp only
  rw [exec_bind_ok (exec_call_noFaults rfl)]
  dsimp only
  split
  · rename_i hstop
    rw [if_pos (by simpa using hstop)]
    exact ⟨_, _, rfl, rfl⟩
  · rename_i hgo
    rw [if_neg (by simpa using hgo)]
    obtain ⟨e, t, ht, hcalls⟩ := calls_writeRollup item.policy item.cutoffTime spec _ _
      { s with calls := s.calls + 1 }
    exact ⟨_, _, exec_bind_error ht, by rw [hcalls]; rfl⟩

theorem calls_rollupRows (item : PlanItem) (s : Session) :
    ∃ r t, exec (rollupRows noFaults item) s = (r, t) ∧ r.isOk = (rollupCalls item s.db).2 ∧
      t.calls = s.calls + (rollupCalls item s.db).1 := by
  unfold rollupRows rollupCalls
  split
  · by_cases hname : item.policy.tableName = "derivative_klines"
    · rw [if_neg (not_not.2 hname)]
      cases hspec : klineRollup item.policy.intervalValue with
      | none =>
        rw [rollupBeforeDelete, if_neg (not_not.2 hname), hspec]
        exact ⟨_, _, rfl, rfl, rfl⟩
      | some spec =>
        dsimp only
        obtain ⟨r, t, hexec, hcalls⟩ := calls_rollupBeforeDelete hname hspec s
        rw [exec_bind, exec_tryCatch, hexec]
        rcases r with e | w
        all_goals
          refine ⟨_, _, rfl, ?_⟩
          split <;> rename_i h <;> simp only [h, ↓reduceIte, Prod.mk.injEq] at hcalls <;>
            exact ⟨hcalls.1, hcalls.2⟩
    · rw [if_pos hname, rollupBeforeDelete, if_pos hname]
      exact ⟨_, _, rfl, rfl, rfl⟩
  · exact ⟨_, _, rfl, rfl, rfl⟩

theorem calls_dropAll (ps : List PartitionName) (s : Session) :
    Returns (ps.forM (dropOne noFaults)) s fun _ t => t.calls = s.calls + ps.length := by
  induction ps generalizing s with
  | nil => exact .pure rfl
  | cons p ps ih =>
    refine .bind (P := fun _ t => t.calls = s.calls + 1) ⟨(), _, rfl, rfl⟩ fun _ t ht => ?_
    refine (ih t).mono fun _ u hu => ?_
    rw [hu, ht, List.length_cons]
    omega

/-- Children are dropped if there are any and the run is not dry; a table that keeps
    its children keeps its rows. -/
theorem calls_dropPartitions (item : PlanItem) (s : Session) :
    Returns (dropPartitions noFaults item) s fun dropped t =>
      (dropped = true ↔
        item.usePartitionDrop ∧ 0 < (droppable item s.db).length ∧ item.dryRun = false) ∧
      (dropped = false → t.db = s.db) ∧
      t.calls = s.calls + (if item.usePartitionDrop then 1 else 0) +
        if dropped then (droppable item s.db).length else 0 := by
  unfold dropPartitions
  by_cases huse : item.usePartitionDrop
  · simp only [huse, ↓reduceIte, true_and]
    refine .bind (P := fun ps t => ps = droppable item s.db ∧ t.db = s.db ∧ t.calls = s.calls + 1)
      ⟨_, _, exec_call_noFaults rfl, rfl, rfl, rfl⟩ fun ps t ht => ?_
    obtain ⟨rfl, hdb, hcalls⟩ := ht
    refine .bind (returns_updateResult _ t) fun _ u hu => ?_
    obtain ⟨hudb, -, hucalls⟩ := hu
    by_cases hgo : 0 < (droppable item s.db).length ∧ item.dryRun = false
    · rw [if_pos (by simpa using hgo)]
      refine .bind (calls_dropAll _ u) fun _ v hv => .pure ⟨iff_of_true rfl hgo, nofun, ?_⟩
      rw [hv, hucalls, hcalls]
      rfl
    · rw [if_neg (by simpa using hgo)]
      exact .pure ⟨iff_of_false Bool.false_ne_true hgo, fun _ => hudb.trans hdb,
        hucalls.trans hcalls⟩
  · simp only [huse]
    exact .pure ⟨iff_of_false Bool.false_ne_true fun h => Bool.false_ne_true h.1,
      fun _ => rfl, rfl⟩

theorem calls_removeRows (opts : EngineOptions) (s : Session) (hchunk : 0 < item.policy.chunkSize) :
    Returns (removeRows noFaults opts item) s fun _ t =>
      t.calls = s.calls + removalCalls opts item s.db := by
  refine .bind (calls_dropPartitions item s) fun dropped t ht => ?_
  obtain ⟨hdropped, hdb, hcalls⟩ := ht
  rw [removalCalls, ← add_assoc]
  by_cases hdry : item.dryRun
  · have hstay : dropped = false := by
      rw [← Bool.not_eq_true, hdropped]
      simp [hdry]
    rw [if_pos (by simp [hdry])]
    simp only [hdry, ↓reduceIte]
    rw [hstay] at hcalls
    exact .pure hcalls
  · have hnot : item.dryRun = false := by simpa using hdry
    simp only [hnot, and_true] at hdropped
    simp only [hnot, Bool.false_eq_true, ↓reduceIte, Bool.or_false, ← hdropped]
    split
    · rename_i hd
      rw [if_pos hd] at hcalls
      exact .pure hcalls
    · rename_i hd
      rw [if_neg hd] at hcalls
      have hmax := effectiveMaxRows_pos hchunk opts.maxRowsPerRun
      refine (deleteLoop_deletes hchunk _ 0 t hmax.le (by rw [sub_zero])).mono fun _ u hu => ?_
      rw [hu.2.2, sub_zero, hdb (by simpa using hd), hcalls, add_zero]

theorem calls_cleanup (hchunk : 0 < item.policy.chunkSize) :
    (exec (cleanup noFaults opts item) s).2.calls = s.calls + cleanupCalls opts item s.db := by
  rw [cleanup, cleanupCalls]
  by_cases hdisk : opts.diskPressureCritical
  · rw [if_pos hdisk, checkDiskPressure, if_pos hdisk]
    rfl
  · rw [if_neg hdisk]
    obtain ⟨_, s₁, h₁, rfl⟩ := checkDiskPressure_ok (by simpa using hdisk) s
    obtain ⟨_, s₂, h₂, hdb, hcalls₂⟩ : Returns (matchRows noFaults item) s₁ fun _ t =>
        t.db = s₁.db ∧ t.calls = s₁.calls + 1 := ⟨(), _, rfl, rfl, rfl⟩
    rw [exec_bind_ok h₁, exec_bind_ok h₂]
    obtain ⟨r, s₃, h₃, hok, hcalls₃⟩ := calls_rollupRows item s₂
    have hsame := effect_rollupRows (R := SameData) noFaults (fun _ _ h => h.sameData) item s₂
    rw [hdb] at hok hcalls₃
    rw [h₃, OnDB, hdb] at hsame
    rcases r with e | u
    · rw [exec_bind_error h₃, ← hok, hcalls₃, hcalls₂]
      simp only [Except.isOk, Except.toBool, Bool.false_eq_true, ↓reduceIte]
      omega
    · obtain ⟨_, t, ht, hcalls⟩ := calls_removeRows opts s₃ hchunk
      rw [exec_bind_ok h₃, ht, hcalls, removalCalls_congr hsame, ← hok, hcalls₃, hcalls₂]
      simp only [Except.isOk, Except.toBool, ↓reduceIte]
      omega

end

/-! ## The end of a run -/

/-- The number of store calls a started run makes before the one that ends it. -/
def finishCall (faults : Faults) (opts : EngineOptions) (item : PlanItem) (db : DB) : ℕ :=
  (exec (cleanup faults opts item) ⟨db.started item, 1, initialResult item⟩).2.calls

theorem finishCall_le {item : PlanItem} (hchunk : 0 < item.policy.chunkSize) (faults : Faults)
    (opts : EngineOptions) (db : DB) :
    finishCall faults opts item db < callsNeeded opts item db := by
  have hle := (cut_cleanup opts item).calls_le faults ⟨db.started item, 1, initialResult item⟩
  rw [calls_cleanup hchunk] at hle
  have hcalls : cleanupCalls opts item (db.started item) = cleanupCalls opts item db := rfl
  dsimp only at hle
  rw [finishCall, callsNeeded]
  omega

section
variable {faults : Faults} {item : PlanItem} {s : Session}

/-- The final update of a running row takes effect, or the row stays running. -/
theorem audited_finishRun {status : RunStatus} (hst : status ∈ [RunStatus.succeeded, .failed])
    (message : String) (hrun : s.db.Audited item [.running]) :
    (exec (finishRun faults item status message) s).2.db.Audited item [.succeeded, .failed] ↔
      ∀ fault ∈ faults s.calls, fault.committed := by
  obtain ⟨r, hr, hrun⟩ := hrun
  rw [List.mem_singleton] at hrun
  have hdone : (s.db.finished item status s.result message).Audited item [.succeeded, .failed] :=
    ⟨_, DB.find_finished hr status s.result message, hst⟩
  have hnot : ¬s.db.Audited item [.succeeded, .failed] := by
    rintro ⟨r', hr', hst'⟩
    rw [hr] at hr'
    obtain rfl := Option.some.inj hr'
    rw [hrun] at hst'
    exact absurd hst' (by decide)
  have hget : exec getResult s = (.ok s.result, s) := rfl
  rw [finishRun, exec_bind_ok hget, exec_call]
  simp only [finishCleanupRun]
  cases hf : faults s.calls with
  | none => exact iff_of_true hdone (by simp)
  | some fault =>
    cases hc : fault.committed with
    | true =>
      simp only [hc, ↓reduceIte]
      exact iff_of_true hdone (by simp [hc])
    | false =>
      simp only [hc, Bool.false_eq_true, ↓reduceIte]
      exact iff_of_false hnot (by simp [hc])

theorem audited_fail (e : String) (hrun : s.db.Audited item [.running]) :
    (exec (fail faults item e) s).2.db.Audited item [.succeeded, .failed] ↔
      ∀ fault ∈ faults s.calls, fault.committed := by
  have hfailed : exec (updateResult fun r => { r with status := some .failed, errorMessage := e })
      s = (.ok (), { s with
        result := { s.result with status := some .failed, errorMessage := e } }) := rfl
  rw [fail, exec_bind_ok hfailed, exec_bind_throw, exec_tryCatch_pure]
  exact audited_finishRun (by decide) e hrun

/-- **The end of a started run**: its row is finished if the final update takes
    effect. -/
theorem audited_of_started (opts : EngineOptions) (hrun : s.db.Audited item [.running]) :
    (exec (do tryCatch (cleanup faults opts item) (fail faults item)
              finishRun faults item .succeeded "") s).2.db.Audited item [.succeeded, .failed] ↔
      ∀ fault ∈ faults (exec (cleanup faults opts item) s).2.calls, fault.committed := by
  have hsame := cleanup_sameCleanupRuns faults opts item s
  rcases hc : exec (cleanup faults opts item) s with ⟨e | u, t⟩
  all_goals
    rw [hc] at hsame
    have ht : t.db.Audited item [.running] := by
      unfold DB.Audited
      rwa [show t.db.cleanupRuns = s.db.cleanupRuns from hsame]
  · have htry : exec (tryCatch (cleanup faults opts item) (fail faults item)) s =
        exec (fail faults item e) t := by rw [exec_tryCatch, hc]
    rcases hf : exec (fail faults item e) t with ⟨e' | u, t'⟩
    · rw [exec_bind_error (htry.trans hf), ← audited_fail e ht, hf]
    · -- `fail` returns the error
      obtain ⟨_, _, -, hthrow⟩ := exec_bind_eq_ok hf
      obtain ⟨_, _, -, hthrow⟩ := exec_bind_eq_ok hthrow
      cases hthrow
  · have htry : exec (tryCatch (cleanup faults opts item) (fail faults item)) s = (.ok u, t) := by
      rw [exec_tryCatch, hc]
    rw [exec_bind_ok htry]
    exact audited_finishRun (by decide) "" ht

end

/-- The error of a statement issued with an expired context. -/
def deadlineExceeded : Fault := ⟨"context deadline exceeded", false⟩

/-- The context of a run expires before store call `deadline`, or not at all:
    later calls are rejected, and the two updates of the audit row fail for no
    other reason. -/
structure Reachable (deadline : Option ℕ) (finish : ℕ) (faults : Faults) : Prop where
  expired : ∀ d ∈ deadline, ∀ n, d ≤ n → faults n = some deadlineExceeded
  audit : ∀ n ∈ [0, finish], ∀ fault ∈ faults n, ∃ d ∈ deadline, d ≤ n + 1

/-- The run of an item whose start did not fail is finished in the audit table if
    its last call takes effect. -/
theorem audited_runPlanItem {item : PlanItem} {spec : TableSpec}
    (hvalid : validatePolicy item.policy = .ok spec) (opts : EngineOptions) (db : DB)
    {faults : Faults} (h₀ : faults 0 = none) :
    (runPlanItem faults opts item db).2.Audited item [.succeeded, .failed] ↔
      ∀ fault ∈ faults (finishCall faults opts item db), fault.committed := by
  have hstmt : startCleanupRun (cleanupRunKey item.policy item.cutoffTime) item.policy
      item.cutoffTime item.dryRun db = .ok ((), db.started item) := rfl
  have hprog : (runPlanItem faults opts item db).2 =
      (exec (planItemProgram faults opts item) ⟨db, 0, initialResult item⟩).2.db := by
    unfold runPlanItem
    rw [hvalid]
    dsimp only
    split <;> rename_i heq <;> rw [heq]
  have hcall : exec (call faults "start cleanup run: " (startCleanupRun
      (cleanupRunKey item.policy item.cutoffTime) item.policy item.cutoffTime item.dryRun))
      ⟨db, 0, initialResult item⟩ = (.ok (), ⟨db.started item, 1, initialResult item⟩) := by
    rw [exec_call, hstmt, h₀]
  rw [hprog, planItemProgram, exec_bind_ok hcall, audited_of_started opts (db.audited_started item)]
  rfl

/-- The faults of a run whose only trouble is a deadline before store call `d`. -/
def expiringAt (d : ℕ) : Faults := fun n => if d ≤ n then some deadlineExceeded else none

/-- A deadline before call `d` may interrupt call `d - 1`. -/
theorem reachable_expiringAt {d e : ℕ} (hed : e ≤ d) (hde : d ≤ e + 1) (finish : ℕ) :
    Reachable (some d) finish (expiringAt e) := by
  constructor
  · intro d' hd' n hn
    obtain rfl := Option.some.inj hd'
    rw [expiringAt, if_pos (hed.trans hn)]
  · intro n _ fault hf
    refine ⟨d, rfl, ?_⟩
    by_contra hlt
    rw [expiringAt, if_neg (by omega)] at hf
    cases hf

/-- A run that comes to the deadline is not finished. -/
theorem not_audited_expiringAt {item : PlanItem} {spec : TableSpec}
    (hvalid : validatePolicy item.policy = .ok spec) (opts : EngineOptions) (db : DB) {e : ℕ}
    (he : 0 < e) (hlt : e < callsNeeded opts item db) :
    ¬(runPlanItem (expiringAt e) opts item db).2.Audited item [.succeeded, .failed] := by
  obtain ⟨-, -, -, -, -, hchunk, -⟩ := validatePolicy_iff.1 hvalid
  have h₀ : expiringAt e 0 = none := if_neg (by omega)
  have hreached : e ≤ finishCall (expiringAt e) opts item db := by
    rcases (cut_cleanup opts item).cut (expiringAt e) ⟨db.started item, 1, initialResult item⟩ with
      heq | ⟨msg, t, ht, -, n, -, hn, hfault⟩
    · have hcalls : cleanupCalls opts item (db.started item) = cleanupCalls opts item db := rfl
      rw [finishCall, heq, calls_cleanup hchunk]
      rw [callsNeeded] at hlt
      dsimp only
      omega
    · have hen : e ≤ n := by
        by_contra hne
        exact hfault (if_neg hne)
      rw [finishCall, ht]
      exact hen.trans hn.le
  rw [audited_runPlanItem hvalid opts db h₀]
  intro h
  have hlate : expiringAt e (finishCall (expiringAt e) opts item db) = some deadlineExceeded :=
    if_pos hreached
  exact absurd (h _ hlate) (by decide)

theorem runPlanItem_finished_iff {item : PlanItem} {spec : TableSpec}
    (hvalid : validatePolicy item.policy = .ok spec) (opts : EngineOptions) (db : DB)
    (deadline : Option ℕ) :
    (∀ faults, Reachable deadline (finishCall faults opts item db) faults →
      (∀ fault ∈ faults 0, fault.committed) →
        (runPlanItem faults opts item db).2.Audited item [.succeeded, .failed]) ↔
      ∀ d ∈ deadline, d = 0 ∨ callsNeeded opts item db < d := by
  obtain ⟨-, -, -, -, -, hchunk, -⟩ := validatePolicy_iff.1 hvalid
  have htwo : 2 ≤ callsNeeded opts item db := by rw [callsNeeded]; omega
  constructor
  · rintro h d rfl
    by_contra! hnot
    obtain ⟨hpos, hle⟩ := hnot
    -- the context expires during the call before `d`, but not during the first one
    set e := max 1 (d - 1) with he
    have hreach := reachable_expiringAt (d := d) (e := e) (by omega) (by omega)
      (finishCall (expiringAt e) opts item db)
    refine not_audited_expiringAt hvalid opts db (e := e) (by omega) (by omega)
      (h (expiringAt e) hreach fun fault hf => ?_)
    rw [expiringAt, if_neg (by omega)] at hf
    cases hf
  · intro h faults hreach hstart
    have h₀ : faults 0 = none := by
      by_contra hne
      obtain ⟨fault, hfault⟩ := Option.ne_none_iff_exists'.1 hne
      obtain ⟨d, hd, hd1⟩ := hreach.audit 0 (by simp) fault hfault
      rcases h d hd with rfl | hlt
      · have hlate := hreach.expired 0 hd 0 le_rfl
        exact absurd (hstart _ hlate) (by decide)
      · omega
    rw [audited_runPlanItem hvalid opts db h₀]
    intro fault hfault
    obtain ⟨d, hd, hle⟩ := hreach.audit _ (by simp) fault hfault
    have hfinish := finishCall_le hchunk faults opts db
    rcases h d hd with rfl | hlt
    · have hlate := hreach.expired 0 hd 0 le_rfl
      rw [h₀] at hlate
      cases hlate
    · omega

/-- A run of five calls: the start, the count, the list of children, the one it drops
    and the end. -/
theorem runPlanItem_finished_iff_inTime :
    callsNeeded ⟨0, false⟩ plainItem januaryDB = 5 ∧
      ∀ faults, Reachable (some 6) (finishCall faults ⟨0, false⟩ plainItem januaryDB) faults →
        (∀ fault ∈ faults 0, fault.committed) →
          (runPlanItem faults ⟨0, false⟩ plainItem januaryDB).2.Audited plainItem
            [.succeeded, .failed] := by
  have hvalid : validatePolicy plainItem.policy =
      .ok ⟨"derivative_klines", ["open_time"], ["interval"], 7, true⟩ := by rfl
  have hcalls : callsNeeded ⟨0, false⟩ plainItem januaryDB = 5 := by decide +kernel
  refine ⟨hcalls, (runPlanItem_finished_iff hvalid ⟨0, false⟩ januaryDB (some 6)).2 fun d hd => ?_⟩
  obtain rfl := Option.some.inj hd
  exact .inr (by rw [hcalls]; decide)

/-- The deadline passes before the rows are counted: the update that should
    record the failure is rejected as well. -/
theorem deadline_leaves_running :
    Reachable (some 1) (finishCall (expiringAt 1) ⟨0, false⟩ plainItem januaryDB) (expiringAt 1) ∧
      expiringAt 1 0 = none ∧
      (runPlanItem (expiringAt 1) ⟨0, false⟩ plainItem januaryDB).1.2 =
        some "count eligible rows for derivative_klines: context deadline exceeded" ∧
      (runPlanItem (expiringAt 1) ⟨0, false⟩ plainItem januaryDB).2.Audited plainItem
        [.running] := by
  refine ⟨reachable_expiringAt le_rfl (Nat.le_succ 1) _, rfl, by decide +kernel, ?_⟩
  unfold DB.Audited
  decide +kernel

end Aggregator.Retention
