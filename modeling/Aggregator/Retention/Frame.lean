/-
  Which rows a run of a plan item removes.

  A policy with an interval filter should remove rows of its interval only.  The
  chunked delete does; a dropped partition takes the rows of every interval with
  it.

  * `runPlanItem_frame_iff`: whatever store calls fail, a planned run removes only
    rows of the policy's interval before the cutoff, exactly when it stops before
    it removes anything, does not drop partitions, or finds only rows of that
    interval in the partitions that end by the cutoff;
  * `drop_removes_daily`: a policy for one-minute candles drops a partition that
    holds a daily candle.
-/
import Aggregator.Retention.Engine

namespace Aggregator.Retention

open Aggregator.Go

/-- The rows a policy with an interval filter is about. -/
def Slot.InScope (policy : Policy) (cutoff : ℤ) (x : Slot) : Prop :=
  (∃ τ, x.timeColumn policy.timeColumn = some τ ∧ τ < cutoff) ∧ x.interval = policy.intervalValue

/-- The rows of a table lie in its children, inside the range the child's name
    gives. -/
def DB.Partitioned (db : DB) (tableName timeColumn : String) : Prop :=
  ∀ r ∈ db.tables tableName, ∀ p ∈ r.partition, p ∈ db.partitions tableName ∧
    ∀ range ∈ parsePartitionRange tableName p.2,
      ∃ τ ∈ r.timeColumn timeColumn, range.1 ≤ τ ∧ τ < range.2

instance (db : DB) (tableName timeColumn : String) :
    Decidable (db.Partitioned tableName timeColumn) :=
  inferInstanceAs (Decidable (∀ r ∈ db.tables tableName, ∀ p ∈ r.partition, _ ∧
    ∀ range ∈ parsePartitionRange tableName p.2,
      ∃ τ ∈ r.timeColumn timeColumn, range.1 ≤ τ ∧ τ < range.2))

/-- Every row of the table that is gone satisfies `p`. -/
def Removes (name : String) (p : Slot → Prop) (db db' : DB) : Prop :=
  ∀ r ∈ db.tables name, p r.toSlot ∨ ∃ r' ∈ db'.tables name, r'.toSlot = r.toSlot

section
variable {name : String} {p : Slot → Prop}

instance : Std.Refl (Removes name p) := ⟨fun _ r hr => .inr ⟨r, hr, rfl⟩⟩

instance : IsTrans DB (Removes name p) := by
  refine ⟨fun db db' db'' h h' r hr => ?_⟩
  rcases h r hr with hp | ⟨r', hr', heq⟩
  · exact .inl hp
  · rw [← heq]; exact h' r' hr'

theorem Removes.of_sameData {db db' : DB} (h : SameData db db') : Removes name p db db' := by
  intro r hr
  exact .inr ⟨r, by rwa [h.tables], rfl⟩

theorem removes_deleteChunk {policy : Policy} {cutoff : ℤ}
    (h : ∀ x, retentionWhere policy cutoff x → p x) (n : ℤ) :
    Changes (Removes policy.tableName p) (deleteChunk policy cutoff n) := by
  intro db a db' hs r hr
  simp only [deleteChunk, Except.ok.injEq, Prod.mk.injEq] at hs
  rw [← hs.2, DB.setTable_self]
  by_cases hk : r.key ∈ chunkIDs policy cutoff n (db.tables policy.tableName)
  · exact .inl (h _ (mem_chunkIDs hr hk))
  · exact .inr ⟨r, Table.mem_delete.2 ⟨hr, by simpa using hk⟩, rfl⟩

theorem removes_dropPartition {q : PartitionName}
    (h : ∀ x : Slot, x.partition = some q → p x) : Changes (Removes name p) (dropPartition q) := by
  intro db a db' hs r hr
  simp only [dropPartition, Except.ok.injEq, Prod.mk.injEq] at hs
  rw [← hs.2]
  by_cases hq : r.partition = some q
  · exact .inl (h _ hq)
  · exact .inr ⟨r, Table.mem_delete.2 ⟨hr, by simpa using hq⟩, rfl⟩

end

theorem inScope_of_retentionWhere {policy : Policy} {cutoff : ℤ} {x : Slot}
    (hcol : policy.intervalColumn ≠ "") (h : retentionWhere policy cutoff x) :
    x.InScope policy cutoff := by
  simp only [retentionWhere, hcol, Bool.and_eq_true, Bool.or_eq_true, decide_eq_true_eq,
    false_or, Option.any_eq_true] at h
  exact h

/-- A row in a child that ends by the cutoff is before it. -/
theorem DB.Partitioned.lt_cutoff {db : DB} {policy : Policy}
    (hdb : db.Partitioned policy.tableName policy.timeColumn) {cutoff : ℤ} {r : Row}
    (hr : r ∈ db.tables policy.tableName) {p : PartitionName}
    (hp : r.partition = some p) (he : eligiblePartition policy cutoff p) :
    ∃ τ, r.timeColumn policy.timeColumn = some τ ∧ τ < cutoff := by
  obtain ⟨range, hrange, hend⟩ := (Option.any_eq_true _ _).1 he
  obtain ⟨τ, hτ, -, hlt⟩ := (hdb r hr p hp).2 range hrange
  exact ⟨τ, hτ, hlt.trans_le (by simpa using hend)⟩

section
variable {item : PlanItem} {opts : EngineOptions} {db : DB}

/-- The rows in the children that end by the cutoff are of the policy's
    interval. -/
def DB.OwnInterval (db : DB) (policy : Policy) (cutoff : ℤ) : Prop :=
  ∀ r ∈ db.tables policy.tableName, ∀ p ∈ r.partition, eligiblePartition policy cutoff p →
    r.interval = policy.intervalValue

instance (policy : Policy) (cutoff : ℤ) : Decidable (db.OwnInterval policy cutoff) :=
  inferInstanceAs (Decidable (∀ r ∈ db.tables policy.tableName, ∀ p ∈ r.partition, _ → _))

/-- A slot of the database, if it is one, is in the scope of the policy. -/
def DB.InScope (db : DB) (policy : Policy) (cutoff : ℤ) (x : Slot) : Prop :=
  (∃ r ∈ db.tables policy.tableName, r.toSlot = x) → x.InScope policy cutoff

/-- A rollup stage with something to do ends the run. -/
theorem cleanup_of_rollup {faults : Faults} {R : DB → DB → Prop} [Std.Refl R] [IsTrans DB R]
    (hR : ∀ db db', SameData db db' → R db db') {s : Session} (hdry : item.dryRun = false)
    (hroll : item.policy.rollupBeforeDelete)
    (hbusy : ¬rollupIdle item.policy item.cutoffTime s.db) :
    OnDB R s (exec (cleanup faults opts item) s).2 := by
  refine Effect.bind_at (effect_checkDiskPressure opts s) fun _ s₁ h₁ => ?_
  have hs₁ : SameData s.db s₁.db := by
    have := effect_checkDiskPressure (R := SameData) opts s
    rwa [h₁] at this
  refine Effect.bind_at (effect_matchRows faults item _) fun _ s₂ h₂ => ?_
  have hs₂ : SameData s₁.db s₂.db := by
    have := effect_matchRows (R := SameData) faults item s₁
    rwa [h₂] at this
  refine Effect.bind_at (effect_rollupRows faults (fun _ _ h => hR _ _ h.sameData) item _)
    fun _ s₃ h₃ => ?_
  have hidle := rollupIdle_of_ok hroll hdry h₃
  rw [rollupIdle, hs₂.tables, hs₁.tables] at hidle
  exact absurd hidle hbusy

/-- A run that stops in time, deletes in chunks, or drops partitions of its own
    interval. -/
theorem removes_inScope (faults : Faults) (hdry : item.dryRun = false)
    (hcol : item.policy.intervalColumn ≠ "")
    (hdb : db.Partitioned item.policy.tableName item.policy.timeColumn)
    (h : opts.diskPressureCritical ∨ item.usePartitionDrop = false ∨
      (item.policy.rollupBeforeDelete ∧ ¬rollupIdle item.policy item.cutoffTime db) ∨
      db.OwnInterval item.policy item.cutoffTime) :
    Removes item.policy.tableName (db.InScope item.policy item.cutoffTime) db
      (runPlanItem faults opts item db).2 := by
  have hR : ∀ d d', SameData d d' →
      Removes item.policy.tableName (db.InScope item.policy item.cutoffTime) d d' :=
    fun _ _ => Removes.of_sameData
  have hdelete : ∀ n, Changes (Removes item.policy.tableName
      (db.InScope item.policy item.cutoffTime)) (deleteChunk item.policy item.cutoffTime n) :=
    removes_deleteChunk fun x hx _ => inScope_of_retentionWhere hcol hx
  refine runPlanItem_rel faults (fun _ _ h => hR _ _ h.sameData) opts item db fun s hs => ?_
  rcases h with hdisk | hdrop | ⟨hroll, hbusy⟩ | hown
  · have hstop : exec (cleanup faults opts item) s = (.error _, s) :=
      exec_bind_error (by rw [checkDiskPressure, if_pos hdisk]; rfl)
    rw [hstop]; exact Std.Refl.refl s.db
  · exact effect_cleanup faults (fun _ _ h => hR _ _ h.sameData) opts
      (fun h => by rw [hdrop] at h; cases h) hdelete s
  · refine cleanup_of_rollup hR hdry hroll ?_
    rwa [rollupIdle, hs.tables]
  · refine effect_cleanup faults (fun _ _ h => hR _ _ h.sameData) opts (fun _ p hp => ?_) hdelete s
    refine removes_dropPartition fun x hx hmem => ?_
    obtain ⟨r, hr, rfl⟩ := hmem
    exact ⟨hdb.lt_cutoff hr hx hp, hown r hr p hx hp⟩

/-- Without faults, a run that drops partitions takes the rows of the eligible
    ones with it. -/
theorem dropped_of_eligible {spec : TableSpec} (hv : validatePolicy item.policy = .ok spec)
    (hdry : item.dryRun = false) (hdisk : opts.diskPressureCritical = false)
    (huse : item.usePartitionDrop)
    (hidle : item.policy.rollupBeforeDelete → rollupIdle item.policy item.cutoffTime db)
    (hdb : db.Partitioned item.policy.tableName item.policy.timeColumn) {r : Row}
    (hr : r ∈ db.tables item.policy.tableName) {p : PartitionName} (hp : r.partition = some p)
    (he : eligiblePartition item.policy item.cutoffTime p) :
    ∀ r' ∈ (runPlanItem noFaults opts item db).2.tables item.policy.tableName, r'.id ≠ r.id := by
  obtain ⟨s, hs, hfinal⟩ := runPlanItem_noFaults opts hv db
  have hclean : Returns (cleanup noFaults opts item) s fun _ t =>
      ∀ r' ∈ t.db.tables item.policy.tableName, r'.id ≠ r.id := by
    refine .bind (checkDiskPressure_ok hdisk s) fun _ s₁ h₁ => ?_
    subst h₁
    refine .bind (matchRows_noFaults item s₁) fun _ s₂ h₂ => ?_
    rw [← h₂.1] at hs
    refine .bind (rollupRows_noFaults fun h => ?_) fun _ s₃ h₃ => ?_
    · rw [rollupIdle, hs.tables]; exact hidle h
    rw [← h₃.1] at hs
    have hmem : p ∈ s₃.db.partitions item.policy.tableName := by
      rw [hs.partitions]; exact (hdb r hr p hp).1
    refine (removeRows_noFaults huse hdry hmem he).mono fun _ t ht r' hr' hid => ?_
    -- the only row with that id is the one in the dropped child
    obtain ⟨hr', hnot⟩ := (ht _ r').1 hr'
    rw [hs.tables] at hr'
    obtain rfl := Table.eq_of_key hr hr' hid.symm
    exact hnot p (List.mem_filter.2 ⟨hmem, he⟩) hp
  obtain ⟨u, t, hexec, ht⟩ := hclean
  rw [hexec] at hfinal
  rw [hfinal.tables]
  exact ht

end

theorem runPlanItem_frame_iff {now : ℤ} {policies : List Policy} {items : List PlanItem}
    {item : PlanItem} {spec : TableSpec} (hplan : plan now policies = .ok items)
    (hitem : item ∈ items) (hvalid : validatePolicy item.policy = .ok spec)
    (hdry : item.policy.dryRun = false) (hcol : item.policy.intervalColumn ≠ "")
    (opts : EngineOptions) {db : DB}
    (hdb : db.Partitioned item.policy.tableName item.policy.timeColumn) :
    (∀ faults, ∀ r ∈ db.tables item.policy.tableName,
      (∀ r' ∈ (runPlanItem faults opts item db).2.tables item.policy.tableName, r'.id ≠ r.id) →
        r.InScope item.policy (cutoff now item.policy.retentionDays)) ↔
      opts.diskPressureCritical ∨ shouldUsePartitionDrop item.policy spec = false ∨
        (item.policy.rollupBeforeDelete ∧
          ¬rollupIdle item.policy (cutoff now item.policy.retentionDays) db) ∨
        db.OwnInterval item.policy (cutoff now item.policy.retentionDays) := by
  obtain ⟨-, -, spec', hv, hplanned⟩ := mem_plan hplan hitem
  rw [hvalid] at hv
  obtain rfl := Except.ok.inj hv
  have hcut : item.cutoffTime = cutoff now item.policy.retentionDays :=
    congrArg PlanItem.cutoffTime hplanned
  have huse : item.usePartitionDrop = shouldUsePartitionDrop item.policy spec :=
    congrArg PlanItem.usePartitionDrop hplanned
  have hdry' : item.dryRun = false := (congrArg PlanItem.dryRun hplanned).trans hdry
  rw [← hcut, ← huse]
  constructor
  · intro h
    by_contra hcond
    simp only [not_or, Bool.not_eq_true, Bool.not_eq_false, not_and, not_not] at hcond
    obtain ⟨hdisk, huse, hidle, hown⟩ := hcond
    refine hown fun r hr p hp he => ?_
    exact (h noFaults r hr
      (dropped_of_eligible hvalid hdry' hdisk huse hidle hdb hr hp he)).2
  · intro h faults r hr hgone
    rcases removes_inScope faults hdry' hcol hdb h r hr with hscope | ⟨r', hr', hslot⟩
    · exact hscope ⟨r, hr, rfl⟩
    · exact absurd (congrArg Slot.id hslot) (hgone r' hr')

/-! ## Policies for one-minute candles -/

/-- The first seeded policy, with deletion switched on. -/
def seededPolicy : Policy where
  id := 1
  tableName := "derivative_klines"
  timeColumn := "open_time"
  intervalColumn := "interval"
  intervalValue := "1m"
  retentionDays := 14
  chunkSize := 10000
  enabled := true
  dryRun := false
  rollupBeforeDelete := true
  priority := 10
  maxRowsPerRun := 50000
  timeoutSeconds := 180
  partitionStrategy := "auto"
  minRetentionDays := 7

/-- The same policy without the rollup. -/
def plainPolicy : Policy := { seededPolicy with rollupBeforeDelete := false }

/-- Its item in a plan of March 1, 2026. -/
def plainItem : PlanItem := ⟨plainPolicy, monthStart 2026 3 - 14 * day, false, true⟩

/-- A candle that opens on January 10, 2026, in the partition of that month. -/
def januaryRow (id : ℤ) (interval : String) : Row where
  id := id
  partition := some ("public", "derivative_klines_2026_01")
  time := monthStart 2026 1 + 9 * day
  expiresAt := none
  interval := interval
  candle :=
    ⟨1, "binance", "futures", "BTCUSDT", 0, 10, 12, 9, 11, some 5, none, none, none, none, true⟩

/-- A one-minute and a daily candle of January 2026. -/
def januaryDB : DB where
  tables := fun _ => ⟨[januaryRow 1 "1m", januaryRow 2 "1d"], by decide⟩
  partitions := fun _ => [("public", "derivative_klines_2026_01")]
  route := fun _ => some ("public", "derivative_klines_2026_01")
  cleanupRuns := Table.empty
  rollupRuns := Table.empty

/-- The plain policy with partitions left alone, and its item. -/
def chunkedPolicy : Policy := { plainPolicy with partitionStrategy := "delete" }

def chunkedItem : PlanItem := ⟨chunkedPolicy, monthStart 2026 3 - 14 * day, false, false⟩

theorem runPlanItem_frame_iff_chunked :
    plan (monthStart 2026 3) [chunkedPolicy] = .ok [chunkedItem] ∧
      januaryDB.Partitioned "derivative_klines" "open_time" ∧
      ∀ faults, ∀ r ∈ januaryDB.tables "derivative_klines",
        (∀ r' ∈ (runPlanItem faults ⟨0, false⟩ chunkedItem januaryDB).2.tables "derivative_klines",
          r'.id ≠ r.id) → r.InScope chunkedPolicy (cutoff (monthStart 2026 3) 14) := by
  have hplan : plan (monthStart 2026 3) [chunkedPolicy] = .ok [chunkedItem] := by rfl
  have hvalid : validatePolicy chunkedItem.policy =
      .ok ⟨"derivative_klines", ["open_time"], ["interval"], 7, true⟩ := by rfl
  have hdb : januaryDB.Partitioned "derivative_klines" "open_time" := by decide +kernel
  have hiff := runPlanItem_frame_iff hplan List.mem_cons_self hvalid rfl (by decide) ⟨0, false⟩ hdb
  exact ⟨hplan, hdb, hiff.2 (.inr (.inl rfl))⟩

theorem drop_removes_daily :
    plan (monthStart 2026 3) [plainPolicy] = .ok [plainItem] ∧ plainItem.dryRun = false ∧
      januaryDB.Partitioned "derivative_klines" "open_time" ∧
      januaryRow 2 "1d" ∈ januaryDB.tables "derivative_klines" ∧
      (januaryRow 2 "1d").interval ≠ plainPolicy.intervalValue ∧
      ∀ r' ∈ (runPlanItem noFaults ⟨0, false⟩ plainItem januaryDB).2.tables "derivative_klines",
        r'.id ≠ (januaryRow 2 "1d").id := by
  refine ⟨by rfl, rfl, by decide +kernel, ?_, by decide, by decide +kernel⟩
  exact List.mem_cons_of_mem _ List.mem_cons_self

end Aggregator.Retention
