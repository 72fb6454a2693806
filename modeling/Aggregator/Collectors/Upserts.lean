/-
  `RepositoryWriter.Write` on a whole result (`internal/collectors/core/writer.go`,
  and the `Upsert` functions of `internal/repositories`).

  `Write` filters the result and then calls the repositories one after the other,
  also with rows it derives from those that were kept.  Each call checks every
  row again before it writes it.  The database is any `Backend`, whose operations
  answer or fail; an error is told apart by whether a check or the database gave
  it.  After an error the state of the database is not kept, although what the
  earlier calls committed stays: the results are about the errors only.

  * `upsert_notRejected`: rows that pass their checks are not rejected, whatever
    the database does;
  * `write_notRejected_iff`: `Write` fails for no other reason than the database
    exactly if the rows derived from liquidations pass: the period of the job is
    well formed, and no bucket is the zero time;
  * `malformed_period_rejected`: the period of a job that was never checked.
-/
import Aggregator.Collectors.Writer
import Aggregator.Hardening.Result
import Aggregator.Lib.Outcome
import Aggregator.Repositories.Cvd

namespace Aggregator.Collectors.Core

open Aggregator.Go Aggregator.Normalizers Aggregator.Scheduler Aggregator.Hardening
open Aggregator.Repositories

/-! ## Derived rows -/

def deriveOpenInterest (snapshots : List NormalizedMarketSnapshot) : List NormalizedOpenInterest :=
  snapshots.filterMap fun snapshot => snapshot.openInterest.map fun value =>
    { toSourceMeta := snapshot.toSourceMeta
      snapshotTime := snapshot.snapshotTime
      period := ""
      openInterest := value }

def deriveFunding (snapshots : List NormalizedMarketSnapshot) : List NormalizedFundingSnapshot :=
  snapshots.filterMap fun snapshot => snapshot.fundingRate.map fun rate =>
    { toSourceMeta := snapshot.toSourceMeta
      snapshotTime := snapshot.snapshotTime
      fundingRate := rate
      nextFundingTime := 0
      markPrice := snapshot.markPrice
      indexPrice := snapshot.indexPrice }

def fillBasisValues (item : NormalizedBasisPremium) : NormalizedBasisPremium :=
  let item := { item with basisValue := item.basisValue <|> item.basis }
  let item := { item with basis := item.basis <|> item.basisValue }
  let item := match item.basisValue, item.futuresPrice, item.indexPrice with
    | none, some futures, some index =>
      { item with basisValue := some (futures - index), basis := some (futures - index) }
    | _, _, _ => item
  { item with
    basisPercent := item.basisPercent <|> do
      let value ← item.basisValue
      let index ← item.indexPrice
      if index ≠ 0 then return value / index * 100 else none }

/-! ## Calls of the repositories -/

inductive WriteError where
  | validation (text : String)
  | database (text : String)
deriving DecidableEq, Repr

/-- The error is that of a check. -/
def WriteError.Rejected : WriteError → Prop
  | validation _ => True
  | database _ => False

instance : DecidablePred WriteError.Rejected
  | .validation _ => .isTrue trivial
  | .database _ => .isFalse id

/-- A call that a check refuses. -/
theorem ends_rejected_iff {α : Type} {m : Except WriteError α} :
    Ends (fun _ => False) WriteError.Rejected m ↔ ∃ text, m = .error (.validation text) := by
  constructor
  · intro h
    rcases m with (text | text) | a
    · exact ⟨text, rfl⟩
    · exact h.elim
    · exact h.elim
  · rintro ⟨text, rfl⟩
    exact trivial

/-- The operations of the database; `exec` is the statement for one row. -/
structure Backend (σ : Type) where
  beginTx : σ → Except String σ
  exec : String → (kind : RowKind) → kind.Row → σ → Except String σ
  commit : σ → Except String σ
  previousCVD : NormalizedTakerFlow → σ → Except String ℚ
  upsertIssues : List QualityIssue → σ → Except String σ

def database {α : Type} (m : Except String α) : Except WriteError α := m.mapError .database

/-- The row a statement is executed with; small liquidations are skipped. -/
def stored (liquidationMinUSD : ℚ) : (kind : RowKind) → kind.Row → Option kind.Row
  | .takerFlows, row => some (fillTakerFlowDeltas row)
  | .liquidationEvents, row => if liquidationUSD row < liquidationMinUSD then none else some (eventRow row)
  | .liquidationAggregates, row => some (fillLiquidationUSD row)
  | .basisPremiums, row => some (fillBasisValues row)
  | _, row => some row

section
variable {σ : Type} (backend : Backend σ) (liquidationMinUSD : ℚ) (dataType : String)

/-- The statement for a row, unless the row is skipped. -/
def execStored (kind : RowKind) (s : σ) : Option kind.Row → Except WriteError σ
  | none => .ok s
  | some row => database (backend.exec dataType kind row s)

/-- The body of the loop over the rows. -/
def upsertRow (kind : RowKind) (s : σ) (row : kind.Row) : Except WriteError σ := do
  (kind.validate dataType row).mapError .validation
  execStored backend dataType kind s (stored liquidationMinUSD kind row)

/-- A call of a repository. -/
def upsert (kind : RowKind) (rows : List kind.Row) (s : σ) : Except WriteError σ :=
  if rows.isEmpty then .ok s
  else do
    let s ← database (backend.beginTx s)
    let s ← rows.foldlM (upsertRow backend liquidationMinUSD dataType kind) s
    database (backend.commit s)

/-- The body of the loop of `UpsertCVDFromTakerFlows`: a flow whose change is
    known is written in a transaction of its own. -/
def upsertFlowCVD (s : σ) (flow : NormalizedTakerFlow) : Except WriteError σ :=
  match change flow with
  | none => .ok s
  | some change => do
    let previous ← database (backend.previousCVD flow s)
    upsert backend liquidationMinUSD dataType .cvdSnapshots [cvdOfFlow flow previous change] s

end

/-! ## The writer -/

/-- A writer; each of its repositories may be nil. -/
structure FullWriter extends RepositoryWriter where
  hasMarketSnapshot : Bool
  hasKline : Bool
  hasOpenInterest : Bool
  hasFunding : Bool
  hasAdvanced : Bool
  hasQuality : Bool

namespace FullWriter
variable {σ : Type} (w : FullWriter) (backend : Backend σ) (dataType : String) (job : Job)

/-- A call that is made if there is a repository. -/
def call (present : Bool) (kind : RowKind) (rows : List kind.Row) (s : σ) : Except WriteError σ :=
  if present then upsert backend w.liquidationMinUSD dataType kind rows s else .ok s

/-- The calls of the repositories, in order. -/
def calls (result : NormalizedResult) : List (σ → Except WriteError σ) :=
  [w.call backend dataType w.hasMarketSnapshot .marketSnapshots result.marketSnapshots,
   w.call backend dataType w.hasKline .klines result.klines,
   w.call backend dataType w.hasOpenInterest .openInterest result.openInterest,
   w.call backend dataType (w.hasOpenInterest && dataType = "open_interest") .openInterest
     (deriveOpenInterest result.marketSnapshots),
   w.call backend dataType w.hasFunding .fundingSnapshots result.fundingSnapshots,
   w.call backend dataType w.hasFunding .fundingHistory result.fundingHistory,
   w.call backend dataType (w.hasFunding && dataType = "funding") .fundingSnapshots
     (deriveFunding result.marketSnapshots),
   w.call backend dataType w.hasAdvanced .longShortRatios result.longShortRatios,
   w.call backend dataType w.hasAdvanced .takerFlows result.takerFlows,
   fun s => if w.hasAdvanced then
     result.takerFlows.foldlM (upsertFlowCVD backend w.liquidationMinUSD dataType) s else .ok s,
   w.call backend dataType w.hasAdvanced .cvdSnapshots result.cvdSnapshots,
   w.call backend dataType w.hasAdvanced .liquidationEvents result.liquidationEvents,
   w.call backend dataType w.hasAdvanced .liquidationAggregates
     (deriveLiquidationAggregates job result.liquidationEvents),
   w.call backend dataType w.hasAdvanced .liquidationAggregates result.liquidationAggregates,
   w.call backend dataType w.hasAdvanced .basisPremiums result.basisPremiums,
   w.call backend dataType w.hasAdvanced .orderbookImbalances result.orderbookImbalances,
   w.call backend dataType w.hasAdvanced .exchangeDivergences result.exchangeDivergences]

/-- What the filter leaves of a result, and the issues. -/
def filtered (clock now : ℤ) (result : NormalizedResult) : NormalizedResult × List QualityIssue :=
  filterNormalizedResult w.liquidationEventKey clock dataType result job now
    w.validation.withDefaults

def report (issues : List QualityIssue) (s : σ) : Except WriteError σ :=
  if !issues.isEmpty && w.hasQuality then database (backend.upsertIssues issues s) else .ok s

/-- `Write`; `now` is the time of the writer, `clock` that of the system. -/
def write (clock now : ℤ) (result : NormalizedResult) (s : σ) : Except WriteError σ := do
  let filtered := w.filtered dataType job clock now result
  let s ← w.report backend filtered.2 s
  (w.calls backend dataType job filtered.1).foldlM (fun s call => call s) s

end FullWriter

/-! ## Rows that pass their checks -/

section
variable {σ : Type} {backend : Backend σ} {liquidationMinUSD : ℚ} {dataType : String}

/-- The call is not refused by a check. -/
def NotRejected {α : Type} (m : Except WriteError α) : Prop :=
  Ends (fun _ => True) (fun e => ¬e.Rejected) m

theorem notRejected_database {α : Type} (m : Except String α) : NotRejected (database m) := by
  cases m with
  | error e => exact id
  | ok a => trivial

/-- Past its check only the statement for a row can fail. -/
theorem upsertRow_of_valid {kind : RowKind} {row : kind.Row}
    (h : kind.validate dataType row = .ok ()) (s : σ) :
    upsertRow backend liquidationMinUSD dataType kind s row =
      execStored backend dataType kind s (stored liquidationMinUSD kind row) := by
  rw [upsertRow, h]
  rfl

theorem upsertRow_notRejected {kind : RowKind} {row : kind.Row}
    (h : kind.validate dataType row = .ok ()) (s : σ) :
    NotRejected (upsertRow backend liquidationMinUSD dataType kind s row) := by
  rw [upsertRow_of_valid h]
  cases stored liquidationMinUSD kind row with
  | none => trivial
  | some row => exact notRejected_database _

/-- **Rows that pass** are not rejected, whatever the database does. -/
theorem upsert_notRejected {kind : RowKind} {rows : List kind.Row}
    (h : ∀ row ∈ rows, kind.validate dataType row = .ok ()) (s : σ) :
    NotRejected (upsert backend liquidationMinUSD dataType kind rows s) := by
  unfold upsert
  split
  · trivial
  · refine (notRejected_database _).bind fun s _ => ?_
    refine (Ends.foldlM (P := fun _ => True) (fun row hrow s _ => ?_) trivial).bind fun s _ => notRejected_database _
    exact upsertRow_notRejected (h row hrow) s

/-! ### Derived rows -/

theorem deriveOpenInterest_valid {snapshots : List NormalizedMarketSnapshot}
    (h : ∀ row ∈ snapshots, validateMarketSnapshot row = .ok ()) :
    ∀ item ∈ deriveOpenInterest snapshots, validateOpenInterest item false = .ok () := by
  intro item hitem
  obtain ⟨snapshot, hsnapshot, hmap⟩ := List.mem_filterMap.1 hitem
  obtain ⟨value, hvalue, rfl⟩ := Option.map_eq_some_iff.1 hmap
  obtain ⟨hsource, htime, hamounts, -⟩ := validateMarketSnapshot_iff.1 (h snapshot hsnapshot)
  have hnonneg : 0 ≤ value := hamounts snapshot.openInterest (by simp) value hvalue
  rw [validateOpenInterest, hsource, validateTimestamp_iff.2 htime, validateNonNegative_iff.2 hnonneg]
  rfl

theorem deriveFunding_valid {snapshots : List NormalizedMarketSnapshot}
    (h : ∀ row ∈ snapshots, validateMarketSnapshot row = .ok ()) :
    ∀ item ∈ deriveFunding snapshots, validateFundingSnapshot item = .ok () := by
  intro item hitem
  obtain ⟨snapshot, hsnapshot, hmap⟩ := List.mem_filterMap.1 hitem
  obtain ⟨rate, hrate, rfl⟩ := Option.map_eq_some_iff.1 hmap
  obtain ⟨hsource, htime, hamounts, hfunding⟩ := validateMarketSnapshot_iff.1 (h snapshot hsnapshot)
  have hmark : ∀ q ∈ snapshot.markPrice, 0 ≤ q := hamounts snapshot.markPrice (by simp)
  have hindex : ∀ q ∈ snapshot.indexPrice, 0 ≤ q := hamounts snapshot.indexPrice (by simp)
  rw [validateFundingSnapshot, hsource, validateTimestamp_iff.2 htime, hfunding rate hrate,
    validateOptionalNonNegative_iff.2 hmark, validateOptionalNonNegative_iff.2 hindex]
  rfl

theorem cvdOfFlow_valid {flow : NormalizedTakerFlow} (h : validateTakerFlow flow = .ok ())
    (previous change : ℚ) : validateCVD (cvdOfFlow flow previous change) = .ok () := by
  rw [validateTakerFlow, check_eq_ok, check_eq_ok, check_eq_ok, validateTimestamp_iff] at h
  obtain ⟨hsource, htime, hperiod, -⟩ := h
  exact validateCVD_iff.2 ⟨hsource, htime, hperiod⟩

theorem upsertFlowCVD_notRejected {flow : NormalizedTakerFlow}
    (h : validateTakerFlow flow = .ok ()) (s : σ) :
    NotRejected (upsertFlowCVD backend liquidationMinUSD dataType s flow) := by
  unfold upsertFlowCVD
  cases change flow with
  | none => trivial
  | some change =>
    refine (notRejected_database _).bind fun previous _ => upsert_notRejected ?_ s
    intro row hrow
    obtain rfl := List.mem_singleton.1 hrow
    exact cvdOfFlow_valid h previous change

/-- The derived rows of liquidations pass exactly if there are none, or the
    period of the job and the buckets of the events are well formed. -/
theorem derivedAggregates_valid_iff (job : Job) {events : List NormalizedLiquidationEvent}
    (h : ∀ e ∈ events, validateLiquidationEvent e = .ok ()) :
    (∀ a ∈ deriveLiquidationAggregates job events, validateLiquidationAggregate a = .ok ()) ↔
      events = [] ∨ validatePeriod (liquidationPeriod job) = .ok () ∧
        ∀ e ∈ events, bucketOf (liquidationPeriod job) e ≠ 0 := by
  constructor
  · intro hvalid
    rcases events with _ | ⟨first, rest⟩
    · exact .inl rfl
    · have hbucket : ∀ e ∈ first :: rest, bucketOf (liquidationPeriod job) e ≠ 0 ∧
          validatePeriod (liquidationPeriod job) = .ok () := by
        intro e he
        obtain ⟨a, ha, htime⟩ := mem_derive job (counted_of_valid h) he
        rw [← htime]
        exact (derived_valid_iff h ha).1 (hvalid a ha)
      exact .inr ⟨(hbucket first List.mem_cons_self).2, fun e he => (hbucket e he).1⟩
  · rintro (rfl | ⟨hperiod, hbucket⟩) a ha
    · cases ha
    · obtain ⟨e, he, htime⟩ := bucketOf_of_mem_derive h ha
      exact (derived_valid_iff h ha).2 ⟨htime ▸ hbucket e he, hperiod⟩

end

/-! ## The whole of `Write` -/

theorem rows_filtered (w : FullWriter) (dataType : String) (job : Job) (clock now : ℤ)
    (result : NormalizedResult) (kind : RowKind) :
    kind.rows (w.filtered dataType job clock now result).1 =
      (kind.loop w.liquidationEventKey dataType job (if isZero now then clock else now)
        w.validation.withDefaults.withDefaults (kind.rows result)).1 := by
  cases kind <;> rfl

/-- What the filter keeps passes the check of its repository. -/
theorem valid_of_mem_filtered (w : FullWriter) (dataType : String) (job : Job) (clock now : ℤ)
    (result : NormalizedResult) (kind : RowKind) :
    ∀ row ∈ kind.rows (w.filtered dataType job clock now result).1,
      kind.validate dataType row = .ok () := by
  intro row hrow
  rw [rows_filtered] at hrow
  exact (RowKind.check_iff.1 (RowKind.check_of_mem_loop hrow)).2.2

section
variable {σ : Type} {backend : Backend σ} {w : FullWriter} {dataType : String} {job : Job}

theorem call_notRejected {present : Bool} {kind : RowKind} {rows : List kind.Row}
    (h : present = true → ∀ row ∈ rows, kind.validate dataType row = .ok ()) (s : σ) :
    NotRejected (w.call backend dataType present kind rows s) := by
  unfold FullWriter.call
  split
  · rename_i hpresent
    exact upsert_notRejected (h hpresent) s
  · trivial

/-- The calls are not rejected if those with derived liquidations are not. -/
theorem calls_notRejected (backend : Backend σ) {result : NormalizedResult}
    (h : ∀ kind : RowKind, ∀ row ∈ kind.rows result, kind.validate dataType row = .ok ())
    (hderived : w.hasAdvanced = true → ∀ a ∈ deriveLiquidationAggregates job result.liquidationEvents,
      validateLiquidationAggregate a = .ok ()) :
    ∀ call ∈ w.calls backend dataType job result, ∀ s, NotRejected (call s) := by
  have hsnapshots : ∀ row ∈ result.marketSnapshots, validateMarketSnapshot row = .ok () :=
    h .marketSnapshots
  simp only [FullWriter.calls, List.forall_mem_cons, List.not_mem_nil, false_imp_iff,
    implies_true, and_true]
  refine ⟨call_notRejected fun _ => h .marketSnapshots, call_notRejected fun _ => h .klines,
    call_notRejected fun _ => h .openInterest, call_notRejected fun hderive => ?_,
    call_notRejected fun _ => h .fundingSnapshots, call_notRejected fun _ => h .fundingHistory,
    call_notRejected fun _ => deriveFunding_valid hsnapshots,
    call_notRejected fun _ => h .longShortRatios, call_notRejected fun _ => h .takerFlows,
    fun s => ?_, call_notRejected fun _ => h .cvdSnapshots,
    call_notRejected fun _ => h .liquidationEvents, call_notRejected hderived,
    call_notRejected fun _ => h .liquidationAggregates, call_notRejected fun _ => h .basisPremiums,
    call_notRejected fun _ => h .orderbookImbalances,
    call_notRejected fun _ => h .exchangeDivergences⟩
  · -- derived open interest goes to `UpsertSnapshots`, which asks for no period
    have htype : dataType = "open_interest" := by simpa using (Bool.and_eq_true_iff.1 hderive).2
    subst htype
    exact deriveOpenInterest_valid hsnapshots
  · split
    · exact Ends.foldlM (P := fun _ => True)
        (fun flow hflow s _ => upsertFlowCVD_notRejected (h .takerFlows flow hflow) s) trivial
    · trivial

end

/-! ### A database that never fails -/

/-- The state is not needed: only the checks can fail. -/
def answering : Backend Unit where
  beginTx := .ok
  exec _ _ _ := .ok
  commit := .ok
  previousCVD _ _ := .ok 0
  upsertIssues _ := .ok

/-- The call returns, or a check refuses it. -/
def OnlyRejected {α : Type} (m : Except WriteError α) : Prop :=
  Ends (fun _ => True) WriteError.Rejected m

section
variable {liquidationMinUSD : ℚ} {dataType : String}

theorem upsertRow_onlyRejected {kind : RowKind} (row : kind.Row) (s : Unit) :
    OnlyRejected (upsertRow answering liquidationMinUSD dataType kind s row) := by
  cases h : kind.validate dataType row with
  | error e =>
    rw [upsertRow, h]
    exact trivial
  | ok u =>
    rw [upsertRow_of_valid h]
    cases stored liquidationMinUSD kind row <;> exact trivial

theorem upsertRow_rejected {kind : RowKind} {row : kind.Row}
    (h : kind.validate dataType row ≠ .ok ()) (s : Unit) :
    Ends (fun _ => False) WriteError.Rejected
      (upsertRow answering liquidationMinUSD dataType kind s row) := by
  unfold upsertRow
  cases hvalid : kind.validate dataType row with
  | error e => exact trivial
  | ok u => exact absurd hvalid h

theorem upsert_onlyRejected (kind : RowKind) (rows : List kind.Row) (s : Unit) :
    OnlyRejected (upsert answering liquidationMinUSD dataType kind rows s) := by
  unfold upsert
  split
  · trivial
  · exact (Ends.foldlM (P := fun _ => True)
      (fun row _ s _ => upsertRow_onlyRejected row s) trivial).bind fun _ _ => trivial

/-- A row that does not pass makes the call fail. -/
theorem upsert_rejected (kind : RowKind) {rows : List kind.Row}
    (h : ∃ row ∈ rows, kind.validate dataType row ≠ .ok ()) (s : Unit) :
    Ends (fun _ => False) WriteError.Rejected
      (upsert answering liquidationMinUSD dataType kind rows s) := by
  obtain ⟨row, hrow, hvalid⟩ := h
  have hempty : rows.isEmpty = false := List.isEmpty_eq_false_iff.2 (List.ne_nil_of_mem hrow)
  have hloop := Ends.foldlM_error (f := upsertRow answering liquidationMinUSD dataType kind)
    (fun row _ s => upsertRow_onlyRejected row s) ⟨row, hrow, upsertRow_rejected hvalid⟩ s
  rw [upsert, hempty]
  exact hloop.bind fun _ h => h.elim

theorem upsertFlowCVD_onlyRejected (flow : NormalizedTakerFlow) (s : Unit) :
    OnlyRejected (upsertFlowCVD answering liquidationMinUSD dataType s flow) := by
  unfold upsertFlowCVD
  cases change flow with
  | none => trivial
  | some change => exact upsert_onlyRejected .cvdSnapshots [cvdOfFlow flow 0 change] s

end

section
variable {w : FullWriter} {dataType : String} {job : Job}

theorem calls_onlyRejected {result : NormalizedResult} :
    ∀ call ∈ w.calls answering dataType job result, ∀ s, OnlyRejected (call s) := by
  have hcall : ∀ (present : Bool) (kind : RowKind) (rows : List kind.Row) (s : Unit),
      OnlyRejected (w.call answering dataType present kind rows s) := by
    intro present kind rows s
    unfold FullWriter.call
    split
    · exact upsert_onlyRejected kind rows s
    · trivial
  simp only [FullWriter.calls, List.forall_mem_cons, List.not_mem_nil, false_imp_iff,
    implies_true, and_true, hcall, true_and]
  intro s
  split
  · exact Ends.foldlM (P := fun _ => True) (fun flow _ s _ => upsertFlowCVD_onlyRejected flow s)
      trivial
  · trivial

theorem report_notRejected {σ : Type} (backend : Backend σ) (issues : List QualityIssue) (s : σ) :
    NotRejected (w.report backend issues s) := by
  unfold FullWriter.report
  split
  · exact notRejected_database _
  · trivial

theorem report_answering (issues : List QualityIssue) : w.report answering issues () = .ok () := by
  unfold FullWriter.report
  split <;> rfl

theorem write_notRejected {σ : Type} {backend : Backend σ} {clock now : ℤ}
    {result : NormalizedResult}
    (h : ∀ call ∈ w.calls backend dataType job (w.filtered dataType job clock now result).1,
      ∀ s, NotRejected (call s)) (s : σ) :
    NotRejected (w.write backend dataType job clock now result s) := by
  refine (report_notRejected backend _ s).bind fun s _ => ?_
  exact Ends.foldlM (P := fun _ => True) (fun call hcall s _ => h call hcall s) trivial

theorem write_rejected (w : FullWriter) (dataType : String) (job : Job) (clock now : ℤ)
    (result : NormalizedResult)
    (h : ∃ call ∈ w.calls answering dataType job (w.filtered dataType job clock now result).1,
      ∀ s, Ends (fun _ => False) WriteError.Rejected (call s)) :
    Ends (fun _ => False) WriteError.Rejected
      (w.write answering dataType job clock now result ()) := by
  have hcalls := Ends.foldlM_error (f := fun s (call : Unit → Except WriteError Unit) => call s)
    calls_onlyRejected h ()
  rw [FullWriter.write, report_answering]
  exact hcalls

/-- **`Write` is not refused by a check**, in any database, exactly if the rows
    it derives from the liquidations it keeps pass: the period of the job is well
    formed, and no bucket is the zero time. -/
theorem write_notRejected_iff (w : FullWriter) (dataType : String) (job : Job) (clock now : ℤ)
    (result : NormalizedResult) :
    (∀ (σ : Type) (backend : Backend σ) (s : σ) (text : String),
      w.write backend dataType job clock now result s ≠ .error (.validation text)) ↔
    (w.hasAdvanced = true →
      (w.filtered dataType job clock now result).1.liquidationEvents ≠ [] →
      validatePeriod (liquidationPeriod job) = .ok () ∧
      ∀ e ∈ (w.filtered dataType job clock now result).1.liquidationEvents,
        bucketOf (liquidationPeriod job) e ≠ 0) := by
  have hvalid := valid_of_mem_filtered w dataType job clock now result
  have hderived := derivedAggregates_valid_iff job (hvalid .liquidationEvents)
  constructor
  · intro h hadvanced hne
    by_contra hnot
    -- in a database that answers, the call with the derived rows is the one that fails
    have hrow : ∃ a ∈ deriveLiquidationAggregates job
        (w.filtered dataType job clock now result).1.liquidationEvents,
        validateLiquidationAggregate a ≠ .ok () := by
      by_contra hall
      push Not at hall
      rcases hderived.1 hall with hnil | hpass
      · exact hne hnil
      · exact hnot hpass
    have hcall : ∀ s, Ends (fun _ => False) WriteError.Rejected
        (w.call answering dataType w.hasAdvanced .liquidationAggregates
          (deriveLiquidationAggregates job
            (w.filtered dataType job clock now result).1.liquidationEvents) s) := by
      intro s
      rw [FullWriter.call, if_pos hadvanced]
      exact upsert_rejected .liquidationAggregates hrow s
    obtain ⟨text, hwrite⟩ := ends_rejected_iff.1
      (write_rejected w dataType job clock now result ⟨_, by simp [FullWriter.calls], hcall⟩)
    exact h Unit answering () text hwrite
  · intro h σ backend s text hwrite
    have hcalls := calls_notRejected backend hvalid
      fun hadvanced => hderived.2 (or_iff_not_imp_left.2 (h hadvanced))
    exact (ends_iff.1 (write_notRejected hcalls s)).2 _ hwrite trivial

end

def everyRepository : FullWriter where
  liquidationMinUSD := 0
  validation := defaultValidationConfig
  liquidationEventKey := NormalizedLiquidationEvent.eventKey
  hasMarketSnapshot := true
  hasKline := true
  hasOpenInterest := true
  hasFunding := true
  hasAdvanced := true
  hasQuality := true

def noRows : NormalizedResult := ⟨[], [], [], [], [], [], [], [], [], [], [], [], []⟩

/-- A job of a backfill with the period "5min", and a liquidation that passes
    every check. -/
theorem malformed_period_rejected :
    let job := Job.planned 7 "binance" "liquidation" "backfill" 1 "BTCUSDT" "5min" 100 3 .null 0
    let event : NormalizedLiquidationEvent :=
      ⟨⟨1, "binance", "BTCUSDT"⟩, "a", 61 * second, "sell", none, none, none, some 50, "", ""⟩
    let result := { noRows with liquidationEvents := [event] }
    (everyRepository.filtered "liquidation" job hour hour result).1.liquidationEvents = [event] ∧
    ∃ text, everyRepository.write answering "liquidation" job hour hour result () =
      .error (.validation text) := by
  intro job event result
  exact ⟨by decide +kernel, ends_rejected_iff.1 (by decide +kernel)⟩

end Aggregator.Collectors.Core
