/-
  Writing a result to Postgres and to the realtime store
  (`internal/collectors/core/multi_writer.go`).

  A `MultiWriter` gives the same result to each of its writers, up to the first that
  fails.  The repository writer filters its own copy of the result, so the realtime
  writer gets the rows as they came from the exchange.

  * `accepts_iff_mem_filtered`: the rows that the quality gate lets pass;
  * `forall_events_iff`: when all rows pass that the realtime writer makes events of;
  * `multiWriter_gated_iff`: the realtime store gets only rows that pass if the
    repository writer fails, or if no row is rejected.
-/
import Aggregator.Collectors.Upserts
import Aggregator.Realtime.Events

namespace Aggregator.Collectors.Core

open Aggregator.Go Aggregator.Normalizers Aggregator.Scheduler Aggregator.Hardening

/-! ## Writers -/

/-- Calls that change a database and the realtime store. -/
abbrev Both (σ : Type) := ExceptT (WriteError ⊕ String) (StateM (σ × Realtime.World))

abbrev ResultWriter (σ : Type) := String → NormalizedResult → Job → Both σ Unit

section
variable {σ : Type}

/-- `RepositoryWriter.Write`; the model does not say what a failed call leaves in the
    database. -/
def repositoryWriter (w : FullWriter) (backend : Backend σ) (clock now : ℤ) : ResultWriter σ :=
  fun dataType result job s =>
    match w.write backend dataType job clock now result s.1 with
    | .error err => (.error (.inl err), s)
    | .ok db => (.ok (), (db, s.2))

/-- `NormalizedWriter.Write` of the realtime store. -/
def realtimeWriter (w : Realtime.NormalizedWriter) : ResultWriter σ :=
  fun dataType result job s =>
    match exec (w.write dataType result job) s.2 with
    | (.error err, t) => (.error (.inr err), (s.1, t))
    | (.ok (), t) => (.ok (), (s.1, t))

/-- `MultiWriter.Write`; a writer may be nil. -/
def MultiWriter.write (writers : List (Option (ResultWriter σ))) : ResultWriter σ :=
  fun dataType result job => writers.forM fun writer =>
    match writer with
    | none => pure ()
    | some writer => writer dataType result job

/-- What the two writers leave in the realtime store. -/
theorem exec_multiWriter (w : FullWriter) (backend : Backend σ) (clock now : ℤ)
    (r : Realtime.NormalizedWriter) (dataType : String) (result : NormalizedResult) (job : Job)
    (s : σ × Realtime.World) :
    (exec (MultiWriter.write [some (repositoryWriter w backend clock now), some (realtimeWriter r)]
      dataType result job) s).2.2 =
      match w.write backend dataType job clock now result s.1 with
      | .error _ => s.2
      | .ok _ => (exec (r.write dataType result job) s.2).2 := by
  have hrepository : exec (repositoryWriter w backend clock now dataType result job) s =
      match w.write backend dataType job clock now result s.1 with
      | .error err => (.error (.inl err), s)
      | .ok db => (.ok (), (db, s.2)) := rfl
  have hrealtime : ∀ s : σ × Realtime.World,
      (exec (realtimeWriter r dataType result job) s).2.2 =
        (exec (r.write dataType result job) s.2).2 := by
    intro s
    change (match exec (r.write dataType result job) s.2 with
      | (.error err, t) => (_, (s.1, t)) | (.ok (), t) => (_, (s.1, t))).2.2 = _
    split <;> simp [*]
  change (exec (repositoryWriter w backend clock now dataType result job >>= fun _ =>
    realtimeWriter r dataType result job >>= fun _ => pure ()) s).2.2 = _
  rw [exec_bind, hrepository]
  cases w.write backend dataType job clock now result s.1 with
  | error err => rfl
  | ok db => rw [bind_pure_unit, hrealtime]

end

/-! ## Rows that pass the gate -/

section
variable (w : FullWriter) (dataType : String) (job : Job) (clock now : ℤ)

/-- The quality gate of the repository writer lets a row pass. -/
def Accepts (kind : RowKind) (row : kind.Row) : Prop :=
  kind.check dataType job (if isZero now then clock else now)
    w.validation.withDefaults.withDefaults row = .ok ()

/-- The row of an event passes the gate. -/
def AcceptsPayload : Realtime.Payload → Prop
  | .raw _ => True
  | .market row => Accepts w dataType job clock now .marketSnapshots row
  | .openInterest row => Accepts w dataType job clock now .openInterest row
  | .funding row => Accepts w dataType job clock now .fundingSnapshots row
  | .orderbookImbalance row => Accepts w dataType job clock now .orderbookImbalances row

/-- The rows of which the realtime writer makes events pass the gate.  Open interest
    that is derived from a snapshot has no period, which is asked of a history. -/
structure RowsPass (result : NormalizedResult) : Prop where
  market : ∀ row ∈ result.marketSnapshots, Accepts w dataType job clock now .marketSnapshots row
  openInterest : ∀ row ∈ result.openInterest, Accepts w dataType job clock now .openInterest row
  funding : ∀ row ∈ result.fundingSnapshots, Accepts w dataType job clock now .fundingSnapshots row
  orderbook : ∀ row ∈ result.orderbookImbalances,
    Accepts w dataType job clock now .orderbookImbalances row
  derived : dataType = "open_interest_history" →
    ∀ row ∈ result.marketSnapshots, row.openInterest = none

end

section
variable {w : FullWriter} {dataType : String} {job : Job} {clock now : ℤ}

theorem accepts_iff_mem_filtered {kind : RowKind} (hkind : kind ≠ .liquidationEvents)
    {result : NormalizedResult} {row : kind.Row} (hrow : row ∈ kind.rows result) :
    Accepts w dataType job clock now kind row ↔
      row ∈ kind.rows (w.filtered dataType job clock now result).1 := by
  have hprepare : (kind.rows result).map (kind.prepare w.liquidationEventKey) = kind.rows result := by
    cases kind <;> first | exact absurd rfl hkind | exact List.map_id _
  rw [rows_filtered, RowKind.loop, hprepare, mem_keepValid, mapError_eq_ok, and_iff_right hrow]
  exact Iff.rfl

/-- Open interest derived from a snapshot that passes. -/
theorem accepts_derivedOpenInterest {snapshot : NormalizedMarketSnapshot}
    (h : Accepts w dataType job clock now .marketSnapshots snapshot) {value : ℚ}
    (hvalue : snapshot.openInterest = some value) :
    Accepts w dataType job clock now .openInterest
        ⟨snapshot.toSourceMeta, snapshot.snapshotTime, "", value, none⟩ ↔
      dataType ≠ "open_interest_history" := by
  obtain ⟨hsource, -, hvalid⟩ := RowKind.check_iff.1 h
  have hderived : validateOpenInterest
      ⟨snapshot.toSourceMeta, snapshot.snapshotTime, "", value, none⟩ false = .ok () := by
    refine deriveOpenInterest_valid (List.forall_mem_singleton.2 hvalid) _ ?_
    simp [deriveOpenInterest, hvalue]
  constructor
  · rintro haccepts rfl
    have hhistory : validateOpenInterest
        ⟨snapshot.toSourceMeta, snapshot.snapshotTime, "", value, none⟩ true = .ok () :=
      (RowKind.check_iff.1 haccepts).2.2
    rw [validateOpenInterest, check_eq_ok] at hhistory
    obtain ⟨-, hhistory⟩ := hhistory
    have htrim : trimSpace "" = "" := by decide
    cases hperiod : validatePeriod "" with
    | error e =>
      rw [if_pos rfl, hperiod] at hhistory
      cases hhistory
    | ok u =>
      rw [if_pos rfl, hperiod, htrim] at hhistory
      cases hhistory
  · intro hhistory
    refine RowKind.check_iff.2 ⟨hsource, rfl, ?_⟩
    change validateOpenInterest _ (decide (dataType = "open_interest_history")) = .ok ()
    rw [decide_eq_false hhistory]
    exact hderived

/-- A funding rate derived from a snapshot that passes. -/
theorem accepts_derivedFunding {snapshot : NormalizedMarketSnapshot}
    (h : Accepts w dataType job clock now .marketSnapshots snapshot) {rate : ℚ}
    (hrate : snapshot.fundingRate = some rate) :
    Accepts w dataType job clock now .fundingSnapshots
      ⟨snapshot.toSourceMeta, snapshot.snapshotTime, rate, 0, snapshot.markPrice,
        snapshot.indexPrice⟩ := by
  obtain ⟨hsource, hfunding, hvalid⟩ := RowKind.check_iff.1 h
  refine RowKind.check_iff.2 ⟨hsource, ?_, ?_⟩
  · simpa [RowKind.secondCheck, validateFundingOptional, hrate] using hfunding
  · refine deriveFunding_valid (List.forall_mem_singleton.2 hvalid) _ ?_
    simp [deriveFunding, hrate]

theorem forall_events_iff (result : NormalizedResult) :
    (∀ event ∈ Realtime.events result, AcceptsPayload w dataType job clock now event.payload) ↔
      RowsPass w dataType job clock now result := by
  simp only [Realtime.events, Realtime.snapshotEvents, List.mem_append, List.mem_flatMap,
    List.mem_map, List.mem_cons, Option.mem_toList]
  constructor
  · intro h
    have hmarket : ∀ row ∈ result.marketSnapshots,
        Accepts w dataType job clock now .marketSnapshots row :=
      fun row hrow => h _ (.inl ⟨row, hrow, .inl rfl⟩)
    refine ⟨hmarket, fun row hrow => h _ (.inr (.inl ⟨row, hrow, rfl⟩)),
      fun row hrow => h _ (.inr (.inr (.inl ⟨row, hrow, rfl⟩))),
      fun row hrow => h _ (.inr (.inr (.inr ⟨row, hrow, rfl⟩))), fun htype row hrow => ?_⟩
    rw [Option.eq_none_iff_forall_ne_some]
    intro value hvalue
    have hderived := h _ (.inl ⟨row, hrow, .inr (.inl ⟨value, hvalue, rfl⟩)⟩)
    exact (accepts_derivedOpenInterest (hmarket row hrow) hvalue).1 hderived htype
  · intro h event hevent
    rcases hevent with ⟨row, hrow, rfl | ⟨value, hvalue, rfl⟩ | ⟨rate, hrate, rfl⟩⟩ |
      ⟨row, hrow, rfl⟩ | ⟨row, hrow, rfl⟩ | ⟨row, hrow, rfl⟩
    · exact h.market row hrow
    · refine (accepts_derivedOpenInterest (h.market row hrow) hvalue).2 fun htype => ?_
      rw [h.derived htype row hrow] at hvalue
      cases hvalue
    · exact accepts_derivedFunding (h.market row hrow) hrate
    · exact h.openInterest row hrow
    · exact h.funding row hrow
    · exact h.orderbook row hrow

theorem acceptsPayload_orEmpty (payload : Realtime.Payload) :
    AcceptsPayload w dataType job clock now payload.orEmpty ↔
      AcceptsPayload w dataType job clock now payload := by
  unfold Realtime.Payload.orEmpty
  split <;> exact Iff.rfl

end

section
variable {σ : Type} (w : FullWriter) (backend : Backend σ) (clock now : ℤ)
  (r : Realtime.NormalizedWriter) (dataType : String) (result : NormalizedResult) (job : Job) (db : σ)

/-- A store that never fails gets each event, once the repository writer has succeeded. -/
theorem exists_written (hstore : r.latest.hasStore = true)
    (hdb : ∀ err, w.write backend dataType job clock now result db ≠ .error err)
    {event : Realtime.LatestEvent Realtime.Payload} (hevent : event ∈ Realtime.events result) :
    ∃ write ∈ (exec (MultiWriter.write
        [some (repositoryWriter w backend clock now), some (realtimeWriter r)]
        dataType result job) (db, .empty (fun _ => none) fun _ => 0)).2.2.written,
      Realtime.Fills event write.2 := by
  obtain ⟨-, hwrote⟩ := Realtime.wrote_write (s := .empty (fun _ => none) fun _ => 0) hstore
    (fun _ => rfl) dataType result job
  obtain ⟨write, hmem, hfills⟩ := hwrote.exists_mem hevent
  refine ⟨write, ?_, hfills⟩
  rw [exec_multiWriter]
  cases hwrite : w.write backend dataType job clock now result db with
  | error err => exact absurd hwrite (hdb err)
  | ok db' => exact hmem

/-- What is written to an empty store are events of the result, and nothing is if the
    repository writer fails. -/
theorem fills_of_written {s : Realtime.World} (hs : s.written = [])
    {write : String × Realtime.LatestEvent Realtime.Payload}
    (hwrite : write ∈ (exec (MultiWriter.write
        [some (repositoryWriter w backend clock now), some (realtimeWriter r)]
        dataType result job) (db, s)).2.2.written) :
    r.latest.hasStore = true ∧
      (∀ err, w.write backend dataType job clock now result db ≠ .error err) ∧
      ∃ event ∈ Realtime.events result, Realtime.Fills event write.2 := by
  rw [exec_multiWriter] at hwrite
  cases hdb : w.write backend dataType job clock now result db with
  | error err =>
    simp only [hdb, hs] at hwrite
    cases hwrite
  | ok db' =>
    simp only [hdb] at hwrite
    rcases Realtime.adds_writeNormalized r dataType result job s write hwrite with
      hold | ⟨hstore, hevent⟩
    · rw [hs] at hold
      cases hold
    · exact ⟨hstore, nofun, hevent⟩

end

/-- **The gate and the realtime store.**  Whatever the realtime store does, it gets only
    rows that pass the gate exactly if there is no such store, if the repository writer
    fails, or if no row that is made an event of is rejected. -/
theorem multiWriter_gated_iff {σ : Type} (w : FullWriter) (backend : Backend σ) (clock now : ℤ)
    (r : Realtime.NormalizedWriter) (dataType : String) (result : NormalizedResult) (job : Job)
    (db : σ) :
    (∀ s : Realtime.World, s.written = [] →
      ∀ write ∈ (exec (MultiWriter.write
          [some (repositoryWriter w backend clock now), some (realtimeWriter r)]
          dataType result job) (db, s)).2.2.written,
        AcceptsPayload w dataType job clock now write.2.payload) ↔
      r.latest.hasStore = false ∨
      (∃ err, w.write backend dataType job clock now result db = .error err) ∨
      RowsPass w dataType job clock now result := by
  rw [← forall_events_iff]
  constructor
  · intro h
    by_contra hnot
    push Not at hnot
    obtain ⟨hstore, hdb, event, hevent, hrejected⟩ := hnot
    obtain ⟨write, hwrite, hfills⟩ := exists_written w backend clock now r dataType result job db
      (by simpa using hstore) hdb hevent
    have haccepts := h _ rfl write hwrite
    rw [hfills.payload, acceptsPayload_orEmpty] at haccepts
    exact hrejected haccepts
  · intro h s hs write hwrite
    obtain ⟨hstore, hdb, event, hevent, hfills⟩ :=
      fills_of_written w backend clock now r dataType result job db hs hwrite
    rw [hfills.payload, acceptsPayload_orEmpty]
    rcases h with hnone | ⟨err, herr⟩ | hpass
    · rw [hstore] at hnone
      cases hnone
    · exact absurd herr (hdb err)
    · exact hpass event hevent

/-- A funding rate of bitcoin. -/
def fundingRow (rate : ℚ) : NormalizedFundingSnapshot := ⟨bitcoin, noon, rate, 0, none, none⟩

def fundingResult (rate : ℚ) : NormalizedResult := { noRows with fundingSnapshots := [fundingRow rate] }

def fundingJob : Job := Job.sample 7 "funding" 3 noon

/-- A rate that passes is all that the realtime store gets. -/
theorem multiWriter_gated_valid :
    RowsPass everyRepository "funding" fundingJob noon noon (fundingResult (1 / 100)) ∧
    ∀ s : Realtime.World, s.written = [] →
      ∀ write ∈ (exec (MultiWriter.write
          [some (repositoryWriter everyRepository answering noon noon), some (realtimeWriter ⟨⟨true⟩⟩)]
          "funding" (fundingResult (1 / 100)) fundingJob) ((), s)).2.2.written,
        AcceptsPayload everyRepository "funding" fundingJob noon noon write.2.payload := by
  have hrow : Accepts everyRepository "funding" fundingJob noon noon .fundingSnapshots
      (fundingRow (1 / 100)) := by
    unfold Accepts
    decide +kernel
  have hpass : RowsPass everyRepository "funding" fundingJob noon noon (fundingResult (1 / 100)) :=
    ⟨List.forall_mem_nil _, List.forall_mem_nil _, List.forall_mem_singleton.2 hrow,
      List.forall_mem_nil _, fun _ => List.forall_mem_nil _⟩
  exact ⟨hpass, (multiWriter_gated_iff everyRepository answering noon noon ⟨⟨true⟩⟩ "funding"
    (fundingResult (1 / 100)) fundingJob ()).2 (.inr (.inr hpass))⟩

/-- A rate out of range, which the gate drops, is in the realtime store. -/
theorem multiWriter_ungated :
    (everyRepository.filtered "funding" fundingJob noon noon
      (fundingResult (1 / 4))).1.fundingSnapshots = [] ∧
    ∃ write ∈ (exec (MultiWriter.write
        [some (repositoryWriter everyRepository answering noon noon), some (realtimeWriter ⟨⟨true⟩⟩)]
        "funding" (fundingResult (1 / 4)) fundingJob)
        ((), .empty (fun _ => none) fun _ => 0)).2.2.written,
      write.2.payload = .funding (fundingRow (1 / 4)) := by
  have hdb : everyRepository.write answering "funding" fundingJob noon noon (fundingResult (1 / 4)) ()
      = .ok () := by decide +kernel
  obtain ⟨write, hwrite, hfills⟩ := exists_written everyRepository answering noon noon ⟨⟨true⟩⟩
    "funding" (fundingResult (1 / 4)) fundingJob () rfl (hdb ▸ nofun) List.mem_cons_self
  exact ⟨by decide +kernel, write, hwrite, hfills.payload⟩

end Aggregator.Collectors.Core
