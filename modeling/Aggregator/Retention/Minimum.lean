/-
  The minimum retention of a table, over a whole run of the engine.

  A policy is checked against the minimum of its table before it is planned, and
  its cutoff is computed from its own retention.  Rows go in chunks before the
  cutoff or with a partition whose range ends by it, and the plan items run one
  after the other on what the ones before left.

  * `runPlanItem_trims`: what an item may remove, on what the items before it
    left;
  * `runOnce_minimum`: whatever store calls fail, a row that is gone after
    `RunOnce` was older than the built-in minimum of its table.
-/
import Aggregator.Retention.Frame

namespace Aggregator.Retention

open Aggregator.Go

/-- A child table is a child of one table, and lists the rows it holds. -/
structure DB.Inherits (db : DB) : Prop where
  listed : ∀ name, ∀ r ∈ db.tables name, ∀ p ∈ r.partition, p ∈ db.partitions name
  oneParent : ∀ p name name', p ∈ db.partitions name → p ∈ db.partitions name' → name = name'

/-- Every row that is gone satisfies `P`, and no table has a new child. -/
structure Trims (P : String → Slot → Prop) (db db' : DB) : Prop where
  removes : ∀ name, Removes name (P name) db db'
  children : ∀ name, db'.partitions name ⊆ db.partitions name

section
variable {P : String → Slot → Prop}

instance : Std.Refl (Trims P) := ⟨fun db => ⟨fun _ => Std.Refl.refl db, fun _ => List.Subset.refl _⟩⟩

instance : IsTrans DB (Trims P) :=
  ⟨fun _ _ _ h h' => ⟨fun name => IsTrans.trans _ _ _ (h.removes name) (h'.removes name),
    fun name => List.Subset.trans (h'.children name) (h.children name)⟩⟩

theorem Trims.of_sameData {db db' : DB} (h : SameData db db') : Trims P db db' :=
  ⟨fun _ => .of_sameData h, fun name => by rw [h.partitions]; exact List.Subset.refl _⟩

theorem trims_deleteChunk {policy : Policy} {cutoff : ℤ}
    (h : ∀ x, retentionWhere policy cutoff x → P policy.tableName x) (n : ℤ) :
    Changes (Trims P) (deleteChunk policy cutoff n) := by
  intro db a db' hs
  refine ⟨fun name => ?_, fun name => ?_⟩
  · by_cases hn : name = policy.tableName
    · rw [hn]
      exact removes_deleteChunk h n db a db' hs
    · intro r hr
      simp only [deleteChunk, Except.ok.injEq, Prod.mk.injEq] at hs
      rw [← hs.2]
      exact .inr ⟨r, by simpa [DB.setTable, hn] using hr, rfl⟩
  · simp only [deleteChunk, Except.ok.injEq, Prod.mk.injEq] at hs
    rw [← hs.2]
    exact List.Subset.refl _

theorem trims_dropPartition {q : PartitionName}
    (h : ∀ name (x : Slot), x.partition = some q → P name x) :
    Changes (Trims P) (dropPartition q) := by
  intro db a db' hs
  refine ⟨fun name => removes_dropPartition (h name) db a db' hs, fun name => ?_⟩
  simp only [dropPartition, Except.ok.injEq, Prod.mk.injEq] at hs
  rw [← hs.2]
  exact List.filter_subset_self _

end

/-- Some policy of the table has the row before the table's minimum. -/
def Slot.Expired (policies : List Policy) (now : ℤ) (name : String) (x : Slot) : Prop :=
  ∃ policy ∈ policies, policy.enabled ∧ policy.tableName = name ∧
    ∃ spec, validatePolicy policy = .ok spec ∧
      ∃ τ, x.timeColumn policy.timeColumn = some τ ∧ τ < cutoff now spec.minRetentionDays

section
variable {policies : List Policy} {db : DB} {now : ℤ}

/-- A time before the cutoff of a policy is before the minimum of its table. -/
theorem lt_minimum {policy : Policy} {spec : TableSpec} (hv : validatePolicy policy = .ok spec)
    {τ : ℤ} (h : τ < cutoff now policy.retentionDays) : τ < cutoff now spec.minRetentionDays := by
  have hle := minRetentionDays_le hv
  have hday : (0 : ℤ) < day := by decide
  refine h.trans_le (sub_le_sub_left ?_ now)
  exact mul_le_mul_of_nonneg_right hle hday.le

/-- One item, on what the items before it left of `db`. -/
theorem runPlanItem_trims (hdb : db.Inherits)
    (hrange : ∀ policy ∈ policies, policy.partitionStrategy ≠ "delete" →
      db.Partitioned policy.tableName policy.timeColumn)
    {items : List PlanItem} (hplan : plan now policies = .ok items) {item : PlanItem}
    (hi : item ∈ items) (faults : Faults) (opts : EngineOptions) {d : DB}
    (hd : ∀ name, d.partitions name ⊆ db.partitions name) :
    Trims (fun name x => (∃ r ∈ db.tables name, r.toSlot = x) → x.Expired policies now name)
      d (runPlanItem faults opts item d).2 := by
  obtain ⟨hmem, hen, spec, hv, hitem⟩ := mem_plan hplan hi
  have hcut : item.cutoffTime = cutoff now item.policy.retentionDays :=
    congrArg PlanItem.cutoffTime hitem
  have huse : item.usePartitionDrop = shouldUsePartitionDrop item.policy spec :=
    congrArg PlanItem.usePartitionDrop hitem
  -- a row before the cutoff of the item
  have hexpired : ∀ x : Slot,
      (∃ τ, x.timeColumn item.policy.timeColumn = some τ ∧ τ < item.cutoffTime) →
        x.Expired policies now item.policy.tableName := by
    rintro x ⟨τ, hτ, hlt⟩
    rw [hcut] at hlt
    exact ⟨item.policy, hmem, hen, rfl, spec, hv, τ, hτ, lt_minimum hv hlt⟩
  refine runPlanItem_rel faults (fun _ _ h => Trims.of_sameData h.sameData) opts item d fun s hs => ?_
  refine cleanup_at faults (fun _ _ h => Trims.of_sameData h.sameData) opts
    (fun hdrop q hq helig => ?_)
    (trims_deleteChunk fun x hx _ => hexpired x ?_)
  · refine trims_dropPartition fun name x hx hrow => ?_
    obtain ⟨r, hr, rfl⟩ := hrow
    rw [hs.partitions] at hq
    obtain rfl := hdb.oneParent q _ _ (hdb.listed name r hr q hx) (hd _ hq)
    have hstrategy : item.policy.partitionStrategy ≠ "delete" := by
      intro hdel
      rw [huse, shouldUsePartitionDrop, hdel] at hdrop
      cases hdrop
    exact hexpired _ ((hrange _ hmem hstrategy).lt_cutoff hr hx helig)
  · simp only [retentionWhere, Bool.and_eq_true, Option.any_eq_true, decide_eq_true_eq] at hx
    exact hx.1

end

theorem runOnce_minimum {policies : List Policy} {db : DB} (hdb : db.Inherits)
    (hrange : ∀ policy ∈ policies, policy.partitionStrategy ≠ "delete" →
      db.Partitioned policy.tableName policy.timeColumn)
    (faults : ℕ → Faults) (opts : EngineOptions) (now : ℤ) {name : String} {r : Row}
    (hr : r ∈ db.tables name)
    (hgone : ∀ r' ∈ (runOnce faults opts now (.ok policies) db).2.tables name, r'.id ≠ r.id) :
    r.Expired policies now name := by
  have htrims : Trims (fun name x => (∃ r ∈ db.tables name, r.toSlot = x) → x.Expired policies now name)
      db (runOnce faults opts now (.ok policies) db).2 := by
    refine runOnce_rel fun ps items hps hplan item hi f d hd => ?_
    obtain rfl := Except.ok.inj hps
    exact runPlanItem_trims hdb hrange hplan hi f opts hd.children
  rcases htrims.removes name r hr with hexp | ⟨r', hr', hslot⟩
  · exact hexp ⟨r, hr, rfl⟩
  · exact absurd (congrArg Slot.id hslot) (hgone r' hr')

/-- The candles of January 2026, and no other table. -/
def candlesDB : DB where
  tables := fun name => if name = "derivative_klines" then januaryDB.tables name else Table.empty
  partitions := fun name => if name = "derivative_klines" then januaryDB.partitions name else []
  route := januaryDB.route
  cleanupRuns := Table.empty
  rollupRuns := Table.empty

theorem candlesDB_inherits : candlesDB.Inherits := by
  constructor
  · intro name r hr p hp
    by_cases hname : name = "derivative_klines"
    · subst hname
      have hall : ∀ r ∈ candlesDB.tables "derivative_klines", ∀ p ∈ r.partition,
          p ∈ candlesDB.partitions "derivative_klines" := by decide
      exact hall r hr p hp
    · simp only [candlesDB, hname, ↓reduceIte] at hr
      exact absurd hr List.not_mem_nil
  · intro p name name' h h'
    have hname : ∀ n, p ∈ candlesDB.partitions n → n = "derivative_klines" := by
      intro n hn
      by_contra hne
      simp only [candlesDB, hne, ↓reduceIte, List.not_mem_nil] at hn
    rw [hname name h, hname name' h']

theorem runOnce_minimum_january :
    januaryRow 1 "1m" ∈ candlesDB.tables "derivative_klines" ∧
      (∀ r' ∈ (runOnce (fun _ => noFaults) ⟨0, false⟩ (monthStart 2026 3) (.ok [plainPolicy])
        candlesDB).2.tables "derivative_klines", r'.id ≠ (januaryRow 1 "1m").id) ∧
      (januaryRow 1 "1m").Expired [plainPolicy] (monthStart 2026 3) "derivative_klines" := by
  have hmem : januaryRow 1 "1m" ∈ candlesDB.tables "derivative_klines" := List.mem_cons_self
  have hgone : ∀ r' ∈ (runOnce (fun _ => noFaults) ⟨0, false⟩ (monthStart 2026 3)
      (.ok [plainPolicy]) candlesDB).2.tables "derivative_klines",
      r'.id ≠ (januaryRow 1 "1m").id := by decide +kernel
  have hrange : ∀ policy ∈ [plainPolicy], policy.partitionStrategy ≠ "delete" →
      candlesDB.Partitioned policy.tableName policy.timeColumn := by decide +kernel
  exact ⟨hmem, hgone, runOnce_minimum candlesDB_inherits hrange _ _ _ hmem hgone⟩

end Aggregator.Retention
