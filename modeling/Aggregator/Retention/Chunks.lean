/-
  The chunked delete.

  A run that does not drop partitions deletes the rows before the cutoff in
  chunks, oldest first, up to the row limit of the policy and of the engine.

  * `DeletesOldest`: some number of the oldest eligible rows are gone; one chunk
    deletes them so (`deletesOldest_delete`), and so do chunks one after the
    other (`DeletesOldest.trans`);
  * `deleteLoop_deletes`: the loop deletes as many rows as there are, or as the
    limit allows;
  * `runPlanItem_deletes`: a run on the delete path does, and reports their
    number.
-/
import Aggregator.Retention.Audit

namespace Aggregator.Retention

open Aggregator.Go

/-! ## The oldest rows -/

/-- The rows of a table a policy is about. -/
def eligibleRows (policy : Policy) (cutoff : ℤ) (t : Table Row.key) : List Row :=
  t.rows.filter (retentionWhere policy cutoff ·.toSlot)

/-- The time a policy orders rows by. -/
def Policy.timeOf (policy : Policy) (r : Row) : ℤ := (r.timeColumn policy.timeColumn).getD 0

/-- Exactly `n` rows of `t` are gone in `t'`, all of them eligible, and no
    eligible row that is left is older than one of them. -/
structure DeletesOldest (policy : Policy) (cutoff : ℤ) (n : ℕ) (t t' : Table Row.key) : Prop where
  sublist : t'.rows.Sublist t.rows
  count : t'.rows.length + n = t.rows.length
  eligible : ∀ r ∈ t, r ∉ t' → retentionWhere policy cutoff r.toSlot
  oldest : ∀ r ∈ t, r ∉ t' → ∀ s ∈ t', retentionWhere policy cutoff s.toSlot →
    policy.timeOf r ≤ policy.timeOf s
  left : (eligibleRows policy cutoff t').length + n = (eligibleRows policy cutoff t).length

section
variable {policy : Policy} {cutoff : ℤ}

theorem DeletesOldest.refl (t : Table Row.key) : DeletesOldest policy cutoff 0 t t :=
  ⟨List.Sublist.refl _, rfl, fun _ hr hn => absurd hr hn, fun _ hr hn => absurd hr hn, rfl⟩

theorem DeletesOldest.trans {n m : ℕ} {t t' t'' : Table Row.key}
    (h : DeletesOldest policy cutoff n t t') (h' : DeletesOldest policy cutoff m t' t'') :
    DeletesOldest policy cutoff (n + m) t t'' := by
  refine ⟨h'.sublist.trans h.sublist, ?_, fun r hr hn => ?_, fun r hr hn s hs he => ?_, ?_⟩
  · have := h.count
    have := h'.count
    omega
  · by_cases hr' : r ∈ t'
    exacts [h'.eligible r hr' hn, h.eligible r hr hr']
  · by_cases hr' : r ∈ t'
    · exact h'.oldest r hr' hn s hs he
    · exact h.oldest r hr hr' s (h'.sublist.subset hs) he
  · have := h.left
    have := h'.left
    omega

/-- In a list with distinct keys, as many rows have one of some keys of the list
    as there are keys. -/
theorem length_filter_key {rows : List Row} (hn : (rows.map Row.key).Nodup) {ids : List ℤ}
    (hids : ids.Nodup) (hsub : ids ⊆ rows.map Row.key) :
    (rows.filter (·.key ∈ ids)).length = ids.length := by
  have hperm : ((rows.map Row.key).filter (· ∈ ids)).Perm ids := by
    refine (List.perm_ext_iff_of_nodup (hn.filter _) hids).2 fun a => ?_
    rw [List.mem_filter, decide_eq_true_eq]
    exact and_iff_right_of_imp fun ha => hsub ha
  have hmap : (rows.map Row.key).filter (· ∈ ids) = (rows.filter (·.key ∈ ids)).map Row.key := by
    rw [List.filter_map]
    rfl
  rw [← hperm.length_eq, hmap, List.length_map]

/-- Deleting them shortens the list by their number. -/
theorem length_filter_not_key {rows : List Row} (hn : (rows.map Row.key).Nodup) {ids : List ℤ}
    (hids : ids.Nodup) (hsub : ids ⊆ rows.map Row.key) :
    (rows.filter fun r => !decide (r.key ∈ ids)).length + ids.length = rows.length := by
  have hsplit := List.length_eq_length_filter_add (l := rows) (fun r => decide (r.key ∈ ids))
  rw [length_filter_key hn hids hsub] at hsplit
  omega

/-! ## One chunk -/

/-- The rows the subquery of the chunked delete selects. -/
def chunkRows (policy : Policy) (cutoff n : ℤ) (t : Table Row.key) : List Row :=
  ((eligibleRows policy cutoff t).insertionSort fun r s => policy.timeOf r ≤ policy.timeOf s).take
    n.toNat

theorem chunkIDs_eq (n : ℤ) (t : Table Row.key) :
    chunkIDs policy cutoff n t = (chunkRows policy cutoff n t).map Row.key := rfl

variable {n : ℤ} {t : Table Row.key}

theorem eligible_of_mem_chunkRows {r : Row} (h : r ∈ chunkRows policy cutoff n t) :
    r ∈ eligibleRows policy cutoff t :=
  (List.mem_insertionSort _).1 (List.mem_of_mem_take h)

theorem key_mem_chunkIDs {r : Row} (hr : r ∈ t) :
    r.key ∈ chunkIDs policy cutoff n t ↔ r ∈ chunkRows policy cutoff n t := by
  rw [chunkIDs_eq, List.mem_map]
  constructor
  · rintro ⟨s, hs, hk⟩
    rwa [← Table.eq_of_key (List.mem_filter.1 (eligible_of_mem_chunkRows hs)).1 hr hk]
  · exact fun h => ⟨r, h, rfl⟩

theorem nodup_eligibleRows : ((eligibleRows policy cutoff t).map Row.key).Nodup :=
  t.nodup.sublist (List.filter_sublist.map Row.key)

theorem nodup_chunkIDs : (chunkIDs policy cutoff n t).Nodup := by
  have hperm := (List.perm_insertionSort (fun r s => policy.timeOf r ≤ policy.timeOf s)
    (eligibleRows policy cutoff t)).map Row.key
  exact (hperm.nodup_iff.2 nodup_eligibleRows).sublist ((List.take_sublist _ _).map Row.key)

theorem length_chunkIDs :
    (chunkIDs policy cutoff n t).length = min n.toNat (eligibleRows policy cutoff t).length := by
  rw [chunkIDs_eq, List.length_map, chunkRows, List.length_take, List.length_insertionSort]

/-- The chunk is the beginning of the eligible rows in their order. -/
theorem timeOf_le_of_chunk {r s : Row} (hr : r ∈ chunkRows policy cutoff n t)
    (hs : s ∈ eligibleRows policy cutoff t) (hn : s ∉ chunkRows policy cutoff n t) :
    policy.timeOf r ≤ policy.timeOf s := by
  have : IsTrans Row fun r s => policy.timeOf r ≤ policy.timeOf s := ⟨fun _ _ _ => le_trans⟩
  have : Std.Total fun r s : Row => policy.timeOf r ≤ policy.timeOf s := ⟨fun _ _ => le_total _ _⟩
  have hpair := List.pairwise_insertionSort (fun r s => policy.timeOf r ≤ policy.timeOf s)
    (eligibleRows policy cutoff t)
  have hs' := (List.mem_insertionSort fun r s => policy.timeOf r ≤ policy.timeOf s).2 hs
  rw [← List.take_append_drop n.toNat (List.insertionSort _ _)] at hpair hs'
  rw [List.pairwise_append] at hpair
  exact hpair.2.2 r hr s ((List.mem_append.1 hs').resolve_left hn)

/-- **One chunk deletes the oldest eligible rows.** -/
theorem deletesOldest_delete :
    DeletesOldest policy cutoff (chunkIDs policy cutoff n t).length t
      (t.delete (·.key ∈ chunkIDs policy cutoff n t)) := by
  have hgone : ∀ r ∈ t, r ∉ t.delete (·.key ∈ chunkIDs policy cutoff n t) →
      r ∈ chunkRows policy cutoff n t := by
    intro r hr hn
    rw [Table.mem_delete, not_and, Bool.not_eq_false, decide_eq_true_eq] at hn
    exact (key_mem_chunkIDs hr).1 (hn hr)
  have hsub : chunkIDs policy cutoff n t ⊆ (eligibleRows policy cutoff t).map Row.key :=
    List.map_subset _ fun r hr => eligible_of_mem_chunkRows hr
  refine ⟨List.filter_sublist, ?_, fun r hr hn => ?_, fun r hr hn s hs he => ?_, ?_⟩
  · refine length_filter_not_key t.nodup nodup_chunkIDs fun id hid => ?_
    exact List.map_subset _ (List.filter_sublist.subset) (hsub hid)
  · exact (List.mem_filter.1 (eligible_of_mem_chunkRows (hgone r hr hn))).2
  · obtain ⟨hst, hsn⟩ := Table.mem_delete.1 hs
    rw [decide_eq_false_iff_not, key_mem_chunkIDs hst] at hsn
    exact timeOf_le_of_chunk (hgone r hr hn) (List.mem_filter.2 ⟨hst, he⟩) hsn
  · have hcomm : eligibleRows policy cutoff (t.delete (·.key ∈ chunkIDs policy cutoff n t)) =
        (eligibleRows policy cutoff t).filter fun r =>
          !decide (r.key ∈ chunkIDs policy cutoff n t) := by
      simp only [eligibleRows, Table.delete, List.filter_filter, Bool.and_comm]
    rw [hcomm]
    exact length_filter_not_key nodup_eligibleRows nodup_chunkIDs hsub

end

/-! ## The loop -/

/-- One pass of the loop, without its test. -/
def deleteOne (faults : Faults) (policy : Policy) (cutoff chunkSize : ℤ) : Exec Unit := do
  let deleted ← call faults s!"delete chunk for {policy.tableName}: "
    (deleteChunk policy cutoff chunkSize)
  updateResult fun r => { r with rowsDeleted := r.rowsDeleted + deleted }

section
variable {policy : Policy} {cutoff maxRows : ℤ}

/-- **The loop asks for chunks of at most the chunk size**, whatever calls fail. -/
theorem deleteLoop_requests (faults : Faults) (fuel : ℕ) (n : ℤ) (s : Session) :
    ∃ chunks : List ℤ, (∀ c ∈ chunks, 0 < c ∧ c ≤ policy.chunkSize) ∧
      exec (deleteLoop faults policy cutoff maxRows fuel n) s =
        exec (chunks.forM (deleteOne faults policy cutoff)) s := by
  induction fuel generalizing n s with
  | zero => exact ⟨[], by simp, rfl⟩
  | succ fuel ih =>
    rw [deleteLoop]
    by_cases hn : n < maxRows
    · rw [if_pos hn]
      set chunkSize := min policy.chunkSize (maxRows - n) with hchunk
      by_cases hc : chunkSize ≤ 0
      · rw [if_pos hc]
        exact ⟨[], by simp, rfl⟩
      · rw [if_neg hc]
        have hbound : 0 < chunkSize ∧ chunkSize ≤ policy.chunkSize :=
          ⟨not_le.1 hc, min_le_left _ _⟩
        rcases hcall : exec (call faults s!"delete chunk for {policy.tableName}: "
          (deleteChunk policy cutoff chunkSize)) s with ⟨e | deleted, t⟩
        · refine ⟨[chunkSize], by simpa using hbound, ?_⟩
          have hone : exec (deleteOne faults policy cutoff chunkSize) s = (.error e, t) :=
            exec_bind_error hcall
          rw [exec_bind_error hcall]
          exact (exec_bind_error hone).symm
        · set t' : Session :=
            { t with result := { t.result with rowsDeleted := t.result.rowsDeleted + deleted } }
          have hupd : exec (updateResult fun r => { r with rowsDeleted := r.rowsDeleted + deleted })
              t = (.ok (), t') := rfl
          have hone : exec (deleteOne faults policy cutoff chunkSize) s = (.ok (), t') := by
            rw [deleteOne, exec_bind_ok hcall, hupd]
          rw [exec_bind_ok hcall, exec_bind_ok hupd]
          by_cases hstop : deleted = 0 || deleted < chunkSize
          · rw [if_pos hstop]
            exact ⟨[chunkSize], by simpa using hbound, (exec_bind_ok hone).symm⟩
          · rw [if_neg hstop]
            obtain ⟨chunks, hall, heq⟩ := ih (n + deleted) t'
            refine ⟨chunkSize :: chunks, ?_, ?_⟩
            · rw [List.forall_mem_cons]
              exact ⟨hbound, hall⟩
            · show _ = exec (deleteOne faults policy cutoff chunkSize >>= fun _ =>
                chunks.forM (deleteOne faults policy cutoff)) s
              rw [exec_bind_ok hone, heq]
    · rw [if_neg hn]
      exact ⟨[], by simp, rfl⟩

/-- One pass that succeeds. -/
theorem deleteChunk_noFaults (wrap : String) (n : ℤ) (s : Session) :
    Returns (call noFaults wrap (deleteChunk policy cutoff n)) s fun deleted t =>
      deleted = min n.toNat (eligibleRows policy cutoff (s.db.tables policy.tableName)).length ∧
      DeletesOldest policy cutoff deleted.toNat (s.db.tables policy.tableName)
        (t.db.tables policy.tableName) ∧
      t.result = s.result ∧ t.calls = s.calls + 1 := by
  refine ⟨_, _, exec_call_noFaults rfl, ?_, ?_, rfl, rfl⟩
  · rw [length_chunkIDs]
  · rw [DB.setTable_self]
    exact deletesOldest_delete

/-- The passes of the loop over `eligible` rows: each but the last deletes a whole
    chunk, and one more is needed to see that no row is left. -/
def chunkCalls (chunkSize : ℤ) (eligible maxRows : ℕ) : ℕ :=
  (min (eligible + 1) maxRows + (chunkSize.toNat - 1)) / chunkSize.toNat

theorem chunkCalls_zero {c : ℤ} (hc : 0 < c) (e : ℕ) : chunkCalls c e 0 = 0 := by
  rw [chunkCalls, Nat.min_zero, zero_add]
  exact Nat.div_eq_of_lt (by omega)

/-- The last pass: the limit is reached, or fewer rows are there than asked for. -/
theorem chunkCalls_last {c : ℤ} {e m : ℕ} (hm : 0 < m) (h : e < c.toNat ∨ m ≤ c.toNat) :
    chunkCalls c e m = 1 := by
  rw [chunkCalls, Nat.div_eq_of_lt_le] <;> omega

/-- A pass that deletes a whole chunk. -/
theorem chunkCalls_succ {c : ℤ} {e m : ℕ} (hc : 0 < c) (he : c.toNat ≤ e) (hm : c.toNat ≤ m) :
    chunkCalls c e m = chunkCalls c (e - c.toNat) (m - c.toNat) + 1 := by
  have hmin : min (e + 1) m + (c.toNat - 1) =
      min (e - c.toNat + 1) (m - c.toNat) + (c.toNat - 1) + c.toNat := by omega
  rw [chunkCalls, chunkCalls, hmin, Nat.add_div_right _ (by omega)]

/-- **What the loop deletes**: all eligible rows, or as many as the limit
    allows. -/
theorem deleteLoop_deletes (hchunk : 0 < policy.chunkSize) (fuel : ℕ) (n : ℤ) (s : Session)
    (hn : n ≤ maxRows) (hfuel : (maxRows - n).toNat ≤ fuel) :
    Returns (deleteLoop noFaults policy cutoff maxRows fuel n) s fun _ t =>
      DeletesOldest policy cutoff
        (min (eligibleRows policy cutoff (s.db.tables policy.tableName)).length (maxRows - n).toNat)
        (s.db.tables policy.tableName) (t.db.tables policy.tableName) ∧
      t.result.rowsDeleted = s.result.rowsDeleted +
        (min (eligibleRows policy cutoff (s.db.tables policy.tableName)).length
          (maxRows - n).toNat : ℕ) ∧
      t.calls = s.calls + chunkCalls policy.chunkSize
        (eligibleRows policy cutoff (s.db.tables policy.tableName)).length (maxRows - n).toNat := by
  induction fuel generalizing n s with
  | zero =>
    have hzero : (maxRows - n).toNat = 0 := by omega
    rw [hzero, Nat.min_zero, chunkCalls_zero hchunk]
    exact .pure ⟨.refl _, by simp, rfl⟩
  | succ fuel ih =>
    rw [deleteLoop]
    by_cases hlt : n < maxRows
    · rw [if_pos hlt, if_neg (by omega)]
      set E := (eligibleRows policy cutoff (s.db.tables policy.tableName)).length with hE
      refine .bind (deleteChunk_noFaults _ _ s) fun deleted t ht => ?_
      obtain ⟨hdel, hold, hres, hcalls⟩ := ht
      refine .bind (returns_updateResult _ t) fun _ u hu => ?_
      obtain ⟨hdb, hupd, hsame⟩ := hu
      have hrows : u.result.rowsDeleted = s.result.rowsDeleted + deleted := by rw [hupd, hres]
      rw [← hE] at hdel
      by_cases hstop : deleted = 0 ∨ deleted < min policy.chunkSize (maxRows - n)
      · -- fewer rows than asked for: none is left
        rw [if_pos (by simpa using hstop)]
        have hall : min E (maxRows - n).toNat = deleted.toNat := by omega
        rw [hall]
        refine .pure ⟨by rwa [hdb], ?_, ?_⟩
        · rw [hrows]
          omega
        · rw [hsame, hcalls, chunkCalls_last (by omega) (by omega)]
      · rw [if_neg (by simpa using hstop)]
        have hleft := hold.left
        rw [← hE] at hleft
        have hrest := ih (n + deleted) u (by omega) (by omega)
        rw [hdb] at hrest
        refine hrest.mono fun _ v hv => ?_
        obtain ⟨hv, hvrows, hvcalls⟩ := hv
        have hsum : min E (maxRows - n).toNat = deleted.toNat + min
            (eligibleRows policy cutoff (t.db.tables policy.tableName)).length
            (maxRows - (n + deleted)).toNat := by omega
        rw [hsum]
        refine ⟨hold.trans hv, ?_, ?_⟩
        · rw [hvrows, hrows]
          push_cast
          omega
        · rw [hvcalls, hsame, hcalls]
          by_cases hlast : maxRows - n ≤ policy.chunkSize
          · have hzero : (maxRows - (n + deleted)).toNat = 0 := by omega
            rw [hzero, chunkCalls_zero hchunk, chunkCalls_last (by omega) (by omega)]
          · rw [chunkCalls_succ (e := E) hchunk (by omega) (by omega)]
            have hE' : E - policy.chunkSize.toNat =
                (eligibleRows policy cutoff (t.db.tables policy.tableName)).length := by omega
            have hm : (maxRows - n).toNat - policy.chunkSize.toNat =
                (maxRows - (n + deleted)).toNat := by omega
            rw [hE', hm]
            omega
    · rw [if_neg hlt]
      have hzero : (maxRows - n).toNat = 0 := by omega
      rw [hzero, Nat.min_zero, chunkCalls_zero hchunk]
      exact .pure ⟨.refl _, by simp, rfl⟩

end

/-! ## A run on the delete path -/

section
variable {item : PlanItem}

/-- Without eligible partitions none is dropped. -/
theorem dropPartitions_none {s : Session} (hparts : item.usePartitionDrop →
      ∀ p ∈ s.db.partitions item.policy.tableName,
        eligiblePartition item.policy item.cutoffTime p = false) :
    Returns (dropPartitions noFaults item) s fun dropped t =>
      dropped = false ∧ t.db = s.db ∧ t.result.rowsDeleted = s.result.rowsDeleted := by
  unfold dropPartitions
  split
  · rename_i huse
    have hnil : (s.db.partitions item.policy.tableName).filter
        (eligiblePartition item.policy item.cutoffTime) = [] := by
      rw [List.filter_eq_nil_iff]
      intro p hp
      simp [hparts huse p hp]
    have hlist : exec (call noFaults s!"query partitions for {item.policy.tableName}: "
        (listEligiblePartitions item.policy item.cutoffTime)) s =
          (.ok [], { s with calls := s.calls + 1 }) := by
      refine exec_call_noFaults ?_
      rw [listEligiblePartitions, hnil]
    refine .bind (P := fun ps t => ps = [] ∧ t.db = s.db ∧ t.result = s.result)
      ⟨_, _, hlist, rfl, rfl, rfl⟩ fun ps t ht => ?_
    obtain ⟨rfl, hdb, hres⟩ := ht
    refine .bind (returns_updateResult _ t) fun _ u hu => ?_
    exact .pure ⟨rfl, hu.1.trans hdb, by rw [hu.2.1, hres]⟩
  · exact .pure ⟨rfl, rfl, rfl⟩

theorem effectiveMaxRows_pos {policy : Policy} (h : 0 < policy.chunkSize) (optionMax : ℤ) :
    0 < effectiveMaxRows policy optionMax := by
  simp only [effectiveMaxRows]
  split_ifs <;> omega

/-- The rows a run on the delete path deletes. -/
def deletedRows (opts : EngineOptions) (item : PlanItem) (db : DB) : ℕ :=
  min (eligibleRows item.policy item.cutoffTime (db.tables item.policy.tableName)).length
    (effectiveMaxRows item.policy opts.maxRowsPerRun).toNat

/-- **The stages of a run on the delete path.** -/
theorem cleanup_deletes {opts : EngineOptions} {s : Session} (hchunk : 0 < item.policy.chunkSize)
    (hdry : item.dryRun = false) (hdisk : opts.diskPressureCritical = false)
    (hroll : item.policy.rollupBeforeDelete → rollupIdle item.policy item.cutoffTime s.db)
    (hparts : item.usePartitionDrop → ∀ p ∈ s.db.partitions item.policy.tableName,
      eligiblePartition item.policy item.cutoffTime p = false) :
    Returns (cleanup noFaults opts item) s fun _ t =>
      DeletesOldest item.policy item.cutoffTime (deletedRows opts item s.db)
        (s.db.tables item.policy.tableName) (t.db.tables item.policy.tableName) ∧
      t.result.rowsDeleted = s.result.rowsDeleted + deletedRows opts item s.db := by
  refine .bind (checkDiskPressure_ok hdisk s) fun _ s₁ h₁ => ?_
  subst h₁
  refine .bind (matchRows_noFaults item s₁) fun _ s₂ h₂ => ?_
  obtain ⟨hdb₂, hres₂⟩ := h₂
  refine .bind (rollupRows_noFaults (by rwa [hdb₂])) fun _ s₃ h₃ => ?_
  obtain ⟨hdb₃, hres₃⟩ := h₃
  refine .bind (dropPartitions_none (by rwa [hdb₃, hdb₂])) fun dropped s₄ h₄ => ?_
  obtain ⟨rfl, hdb₄, hres₄⟩ := h₄
  rw [hdry, if_neg (by simp)]
  have hmax := effectiveMaxRows_pos hchunk opts.maxRowsPerRun
  refine (deleteLoop_deletes hchunk _ 0 s₄ hmax.le (by rw [sub_zero])).mono fun _ t ht => ?_
  rw [hdb₄, hdb₃, hdb₂, sub_zero, hres₄, hres₃, hres₂] at ht
  exact ⟨ht.1, ht.2.1⟩

end

theorem runPlanItem_deletes {item : PlanItem} {spec : TableSpec}
    (hvalid : validatePolicy item.policy = .ok spec) (hdry : item.dryRun = false)
    (opts : EngineOptions) (hdisk : opts.diskPressureCritical = false) (db : DB)
    (hroll : item.policy.rollupBeforeDelete → rollupIdle item.policy item.cutoffTime db)
    (hparts : item.usePartitionDrop → ∀ p ∈ db.partitions item.policy.tableName,
      eligiblePartition item.policy item.cutoffTime p = false) :
    let maxRows := effectiveMaxRows item.policy opts.maxRowsPerRun
    let before := db.tables item.policy.tableName
    let n := min (eligibleRows item.policy item.cutoffTime before).length maxRows.toNat
    let out := runPlanItem noFaults opts item db
    out.1.2 = none ∧
    DeletesOldest item.policy item.cutoffTime n before (out.2.tables item.policy.tableName) ∧
    out.1.1.rowsDeleted = n ∧
    (∃ r ∈ out.2.cleanupRuns.find (cleanupRunKey item.policy item.cutoffTime),
      r.status = .succeeded ∧ r.rowsDeleted = n) ∧
    (∀ s, ∃ chunks : List ℤ, (∀ c ∈ chunks, 0 < c ∧ c ≤ item.policy.chunkSize) ∧
      exec (deleteChunks noFaults opts item) s =
        exec (chunks.forM (deleteOne noFaults item.policy item.cutoffTime)) s) ∧
    ∀ passes, deleteLoop noFaults item.policy item.cutoffTime maxRows (maxRows.toNat + passes) 0 =
      deleteChunks noFaults opts item := by
  intro maxRows before n out
  obtain ⟨-, -, -, -, -, hchunk, -⟩ := validatePolicy_iff.1 hvalid
  obtain ⟨u, t, hclean, hold, hres⟩ := cleanup_deletes
    (s := ⟨db.started item, 1, initialResult item⟩) hchunk hdry hdisk hroll hparts
  replace hres : t.result.rowsDeleted = n := hres.trans (zero_add _)
  -- the audit row is still the one the run started with
  have hruns := cleanup_sameCleanupRuns noFaults opts item
    ⟨db.started item, 1, initialResult item⟩
  rw [hclean] at hruns
  obtain ⟨r, hr, -⟩ := db.audited_started item
  rw [← show t.db.cleanupRuns = (db.started item).cleanupRuns from hruns] at hr
  have hprog : exec (planItemProgram noFaults opts item) ⟨db, 0, initialResult item⟩ =
      (.ok (), { t with
        db := t.db.finished item .succeeded t.result "", calls := t.calls + 1 }) := by
    have hstart : exec (call noFaults "start cleanup run: " (startCleanupRun
        (cleanupRunKey item.policy item.cutoffTime) item.policy item.cutoffTime item.dryRun))
        ⟨db, 0, initialResult item⟩ = (.ok (), ⟨db.started item, 1, initialResult item⟩) := rfl
    have htry : exec (tryCatch (cleanup noFaults opts item) (fail noFaults item))
        ⟨db.started item, 1, initialResult item⟩ = (.ok u, t) := by rw [exec_tryCatch, hclean]
    rw [planItemProgram, exec_bind_ok hstart, exec_bind_ok htry]
    rfl
  have hout : out = ((t.result, none), t.db.finished item .succeeded t.result "") :=
    runPlanItem_of_ok hvalid hprog
  rw [hout]
  exact ⟨rfl, hold, hres, ⟨_, DB.find_finished hr .succeeded t.result "", rfl, hres⟩,
    fun s => deleteLoop_requests noFaults _ 0 s,
    fun passes => deleteLoop_fuel noFaults _ _ _ (by rw [sub_zero]) passes⟩

/-- A limit of one row: the one-minute candle of January 2026 goes. -/
theorem runPlanItem_deletes_chunked :
    let out := runPlanItem noFaults ⟨1, false⟩ chunkedItem januaryDB
    chunkedPolicy.rollupBeforeDelete = false ∧ out.1.1.rowsDeleted = 1 ∧
      ∃ r ∈ out.2.cleanupRuns.find (cleanupRunKey chunkedPolicy chunkedItem.cutoffTime),
        r.status = .succeeded ∧ r.rowsDeleted = 1 := by
  have hvalid : validatePolicy chunkedItem.policy =
      .ok ⟨"derivative_klines", ["open_time"], ["interval"], 7, true⟩ := by rfl
  have hroll : chunkedItem.policy.rollupBeforeDelete →
      rollupIdle chunkedItem.policy chunkedItem.cutoffTime januaryDB := nofun
  have hparts : chunkedItem.usePartitionDrop →
      ∀ p ∈ januaryDB.partitions chunkedItem.policy.tableName,
        eligiblePartition chunkedItem.policy chunkedItem.cutoffTime p = false := nofun
  obtain ⟨-, -, hres, hrow, -⟩ :=
    runPlanItem_deletes hvalid rfl ⟨1, false⟩ rfl januaryDB hroll hparts
  have hone : (eligibleRows chunkedPolicy chunkedItem.cutoffTime
      (januaryDB.tables "derivative_klines")).length = 1 := by decide +kernel
  have hn : min (eligibleRows chunkedItem.policy chunkedItem.cutoffTime
      (januaryDB.tables chunkedItem.policy.tableName)).length
        (effectiveMaxRows chunkedItem.policy 1).toNat = 1 := by
    rw [show (eligibleRows chunkedItem.policy chunkedItem.cutoffTime
      (januaryDB.tables chunkedItem.policy.tableName)).length = 1 from hone]
    rfl
  rw [hn] at hres hrow
  exact ⟨rfl, hres, hrow⟩

end Aggregator.Retention
