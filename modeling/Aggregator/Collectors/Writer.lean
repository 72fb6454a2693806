/-
  Writing the result of a liquidation job (`internal/collectors/core/writer.go`:
  `RepositoryWriter.Write`, `deriveLiquidationAggregates`).

  `write` filters the events and aggregates of a result, stores the events,
  stores the aggregates it derives from these events bucket by bucket, and
  stores the aggregates the result carries; each of the three is a transaction
  of its own.

  * `Totals.of` is what a bucket is to show of a set of events, and
    `totals_bucketRow` says that a derived aggregate shows the events of its
    bucket in the batch;
  * `EventsOf.derived_valid`: the repository accepts every derived aggregate;
  * `storeAggregates_returns`, `storeAggregates_sameRows`,
    `storeEvents_sameRows`: what the transactions do to the rows of one series.

  A Go map of buckets is listed in no fixed order; the model lists them by their
  first event.  The rows of a batch have different keys, so their order does not
  matter to the transaction that stores them.
-/
import Aggregator.Hardening.Filter
import Aggregator.Lib.Effect
import Aggregator.Lib.Grouping
import Aggregator.Lib.Run
import Aggregator.Repositories.Liquidation
import Mathlib.Algebra.BigOperators.Group.Finset.Basic
import Mathlib.Data.Finset.Fold

namespace Aggregator.Collectors.Core

open Aggregator.Go Aggregator.Normalizers Aggregator.Scheduler Aggregator.Hardening
open Aggregator.Repositories

/-! ## Deriving aggregates -/

def liquidationPeriod (job : Job) : String :=
  if trimSpace job.period ≠ "" then trimSpace job.period
  else if equalFold job.tier "all" then "5m"
  else "1m"

def liquidationBucketSize (period : String) : ℤ :=
  if toLower (trimSpace period) = "5m" then 5 * minute else minute

/-- The bucket of an event. -/
def bucketOf (period : String) (event : NormalizedLiquidationEvent) : ℤ :=
  truncate event.eventTime (liquidationBucketSize period)

/-- The value `liquidationUSD` of the repository gives the event. -/
def eventUSD (event : NormalizedLiquidationEvent) : ℚ := liquidationUSD event

/-- A liquidated long position: `case "sell", "long"`. -/
def isLong (event : NormalizedLiquidationEvent) : Bool :=
  toLower (trimSpace event.side) ∈ ["sell", "long"]

/-- The aggregate a bucket starts with, at its first event. -/
def newAggregate (period : String) (bucketTime : ℤ) (event : NormalizedLiquidationEvent) :
    NormalizedLiquidationAggregate where
  toSourceMeta := event.toSourceMeta
  period := period
  bucketTime := bucketTime
  longLiquidationCount := 0
  shortLiquidationCount := 0
  longLiquidationNotional := 0
  shortLiquidationNotional := 0
  totalLiquidationNotional := 0
  longLiquidationUSD := 0
  shortLiquidationUSD := 0
  totalLiquidationUSD := 0
  largestLiquidationUSD := 0

theorem newAggregate_bucketTime (period : String) (b : ℤ) (e : NormalizedLiquidationEvent) :
    (newAggregate period b e).bucketTime = b := rfl

/-- The body of the loop over the events, on the aggregate of the bucket. -/
def addEvent (aggregate : NormalizedLiquidationAggregate) (event : NormalizedLiquidationEvent) :
    NormalizedLiquidationAggregate :=
  let usd := eventUSD event
  let aggregate :=
    if isLong event then
      { aggregate with
        longLiquidationCount := aggregate.longLiquidationCount + 1
        longLiquidationUSD := aggregate.longLiquidationUSD + usd
        longLiquidationNotional := aggregate.longLiquidationNotional + usd }
    else
      -- `case "buy", "short"` and `default` are the same
      { aggregate with
        shortLiquidationCount := aggregate.shortLiquidationCount + 1
        shortLiquidationUSD := aggregate.shortLiquidationUSD + usd
        shortLiquidationNotional := aggregate.shortLiquidationNotional + usd }
  { aggregate with
    totalLiquidationUSD := aggregate.totalLiquidationUSD + usd
    totalLiquidationNotional := aggregate.totalLiquidationNotional + usd
    largestLiquidationUSD :=
      if usd > aggregate.largestLiquidationUSD then usd else aggregate.largestLiquidationUSD }

/-- An event changes the counts and sums of an aggregate only. -/
theorem addEvent_frame (a : NormalizedLiquidationAggregate) (e : NormalizedLiquidationEvent) :
    (addEvent a e).toSourceMeta = a.toSourceMeta ∧ (addEvent a e).period = a.period ∧
      (addEvent a e).bucketTime = a.bucketTime := by
  unfold addEvent
  cases isLong e <;> exact ⟨rfl, rfl, rfl⟩

/-- The map `buckets`. -/
abbrev Buckets := Table NormalizedLiquidationAggregate.bucketTime

def addToBuckets (period : String) (buckets : Buckets) (event : NormalizedLiquidationEvent) :
    Buckets :=
  if isZero event.eventTime || event.symbolID = 0 then buckets
  else
    let bucketTime := bucketOf period event
    buckets.upsert (addEvent (newAggregate period bucketTime event) event)
      (fun aggregate => addEvent aggregate event)
      fun aggregate => (addEvent_frame aggregate event).2.2

def deriveLiquidationAggregates (job : Job) (events : List NormalizedLiquidationEvent) :
    List NormalizedLiquidationAggregate :=
  (events.foldl (addToBuckets (liquidationPeriod job)) Table.empty).rows

/-! ## The writer -/

/-- What the writer is configured with; `liquidationEventKey` stands for the
    function of that name. -/
structure RepositoryWriter where
  liquidationMinUSD : ℚ
  validation : ValidationConfig
  liquidationEventKey : NormalizedLiquidationEvent → String

/-- One call of `Write`: the job, its result, the clock, and what reporting the
    dropped rows comes to if there are any. -/
structure Call where
  job : Job
  liquidationEvents : List NormalizedLiquidationEvent
  liquidationAggregates : List NormalizedLiquidationAggregate
  now : ℤ
  report : Except String Unit

namespace Call

def keptEvents (w : RepositoryWriter) (call : Call) :
    List NormalizedLiquidationEvent × List Rejection :=
  filterLiquidationEvents w.liquidationEventKey call.job call.now w.validation
    call.liquidationEvents

def keptAggregates (w : RepositoryWriter) (call : Call) :
    List NormalizedLiquidationAggregate × List Rejection :=
  filterLiquidationAggregates call.job call.now w.validation call.liquidationAggregates

def events (w : RepositoryWriter) (call : Call) : List NormalizedLiquidationEvent :=
  (call.keptEvents w).1

def aggregates (w : RepositoryWriter) (call : Call) : List NormalizedLiquidationAggregate :=
  (call.keptAggregates w).1

def issues (w : RepositoryWriter) (call : Call) : List Rejection :=
  (call.keptEvents w).2 ++ (call.keptAggregates w).2

end Call

abbrev Store := ExceptT String (StateM LiquidationDB)

/-- A call of the repository: what it writes is committed, or an error returned
    and nothing written. -/
def transaction (f : LiquidationDB → Except String (ℕ × LiquidationDB)) : Store Unit := do
  let db ← get
  match f db with
  | .ok (_, db') => set db'
  | .error e => throw e

def storeAggregates (items : List NormalizedLiquidationAggregate) : Store Unit :=
  if items ≠ [] then transaction (upsertLiquidationAggregates items) else pure ()

namespace RepositoryWriter

def reportIssues (w : RepositoryWriter) (call : Call) : Store Unit :=
  if call.issues w ≠ [] then liftM call.report else pure ()

/-- `Write` up to the first transaction. -/
def storeEvents (w : RepositoryWriter) (call : Call) : Store Unit := do
  w.reportIssues call
  if call.events w ≠ [] then
    transaction (upsertLiquidationEvents w.liquidationMinUSD (call.events w))

def storeDerived (w : RepositoryWriter) (call : Call) : Store Unit :=
  if call.events w ≠ [] then
    storeAggregates (deriveLiquidationAggregates call.job (call.events w))
  else pure ()

/-- `Write`, on a result with liquidations. -/
def write (w : RepositoryWriter) (call : Call) : Store Unit := do
  w.storeEvents call
  w.storeDerived call
  storeAggregates (call.aggregates w)

end RepositoryWriter

/-! ## What a bucket is to show -/

/-- The counts and sums of a row. -/
structure Totals where
  longCount : ℤ
  shortCount : ℤ
  longUSD : ℚ
  shortUSD : ℚ
  totalUSD : ℚ
  largestUSD : ℚ
deriving DecidableEq, Repr

/-- The counts and sums of a set of events. -/
def Totals.of (es : Finset NormalizedLiquidationEvent) : Totals where
  longCount := (es.filter fun e => isLong e).card
  shortCount := (es.filter fun e => ¬isLong e).card
  longUSD := ∑ e ∈ es.filter fun e => isLong e, eventUSD e
  shortUSD := ∑ e ∈ es.filter fun e => ¬isLong e, eventUSD e
  totalUSD := ∑ e ∈ es, eventUSD e
  largestUSD := es.fold max 0 eventUSD

def totals (a : NormalizedLiquidationAggregate) : Totals :=
  ⟨a.longLiquidationCount, a.shortLiquidationCount, a.longLiquidationUSD, a.shortLiquidationUSD,
    a.totalLiquidationUSD, a.largestLiquidationUSD⟩

/-- One more event. -/
theorem totals_addEvent {a : NormalizedLiquidationAggregate}
    {es : Finset NormalizedLiquidationEvent} {e : NormalizedLiquidationEvent}
    (ha : totals a = .of es) (he : e ∉ es) : totals (addEvent a e) = .of (insert e es) := by
  simp only [totals, Totals.of, Totals.mk.injEq] at ha
  obtain ⟨hlc, hsc, hl, hs, ht, hm⟩ := ha
  have hf : ∀ p : NormalizedLiquidationEvent → Prop, [DecidablePred p] → e ∉ es.filter p :=
    fun p _ h => he (Finset.mem_filter.1 h).1
  have hmax : ∀ x y : ℚ, (if x < y then y else x) = max y x := fun x y => by
    rw [max_comm, max_def_lt]
  cases hside : isLong e <;>
    simp [totals, Totals.of, addEvent, hside, Finset.filter_insert, Finset.sum_insert he,
      Finset.sum_insert (hf _), Finset.card_insert_of_notMem (hf _), Finset.fold_insert he,
      hlc, hsc, hl, hs, ht, hm, add_comm, hmax]

/-- The aggregate of a bucket whose first event is `e`, after the events `es`. -/
def bucketRow (period : String) (bucketTime : ℤ) (e : NormalizedLiquidationEvent)
    (es : List NormalizedLiquidationEvent) : NormalizedLiquidationAggregate :=
  es.foldl addEvent (newAggregate period bucketTime e)

theorem totals_bucketRow (period : String) (b : ℤ) (e : NormalizedLiquidationEvent)
    {es : List NormalizedLiquidationEvent} (hes : es.Nodup) :
    totals (bucketRow period b e es) = .of es.toFinset := by
  induction es using List.reverseRecOn with
  | nil => rfl
  | append_singleton es x ih =>
    have hx : x ∉ es.toFinset := by
      rw [List.mem_toFinset]
      exact fun h => (List.nodup_append.1 hes).2.2 x h x (List.mem_singleton_self x) rfl
    rw [bucketRow, List.foldl_append, List.toFinset_append, Finset.union_comm]
    exact totals_addEvent (ih (List.nodup_append.1 hes).1) hx

theorem bucketRow_frame (period : String) (b : ℤ) (e : NormalizedLiquidationEvent)
    (es : List NormalizedLiquidationEvent) :
    (bucketRow period b e es).toSourceMeta = e.toSourceMeta ∧
      (bucketRow period b e es).period = period ∧ (bucketRow period b e es).bucketTime = b := by
  induction es using List.reverseRecOn with
  | nil => exact ⟨rfl, rfl, rfl⟩
  | append_singleton es x ih =>
    rw [bucketRow, List.foldl_append]
    obtain ⟨hsource, hperiod, htime⟩ := addEvent_frame (bucketRow period b e es) x
    exact ⟨hsource.trans ih.1, hperiod.trans ih.2.1, htime.trans ih.2.2⟩

/-- An aggregate whose sums agree with each other and are not negative. -/
structure Balanced (a : NormalizedLiquidationAggregate) : Prop where
  longNotional : a.longLiquidationNotional = a.longLiquidationUSD
  shortNotional : a.shortLiquidationNotional = a.shortLiquidationUSD
  totalNotional : a.totalLiquidationNotional = a.totalLiquidationUSD
  total : a.totalLiquidationUSD = a.longLiquidationUSD + a.shortLiquidationUSD
  long_nonneg : 0 ≤ a.longLiquidationUSD
  short_nonneg : 0 ≤ a.shortLiquidationUSD
  largest_nonneg : 0 ≤ a.largestLiquidationUSD

namespace Balanced
variable {a : NormalizedLiquidationAggregate}

protected theorem addEvent (ha : Balanced a) {e : NormalizedLiquidationEvent}
    (he : 0 ≤ eventUSD e) : Balanced (addEvent a e) := by
  obtain ⟨hln, hsn, htn, ht, hl, hs, hm⟩ := ha
  have hlargest : 0 ≤ if eventUSD e > a.largestLiquidationUSD then eventUSD e
      else a.largestLiquidationUSD := by
    split <;> assumption
  unfold addEvent
  cases isLong e
  · exact ⟨hln, congrArg (· + _) hsn, congrArg (· + _) htn,
      by simp only [ht, Bool.false_eq_true, ↓reduceIte]; ring, hl, add_nonneg hs he, hlargest⟩
  · exact ⟨congrArg (· + _) hln, hsn, congrArg (· + _) htn,
      by simp only [ht, ↓reduceIte]; ring, add_nonneg hl he, hs, hlargest⟩

theorem total_nonneg (ha : Balanced a) : 0 ≤ a.totalLiquidationUSD := by
  rw [ha.total]
  exact add_nonneg ha.long_nonneg ha.short_nonneg

/-- The repository finds nothing to fill in. -/
theorem fill (ha : Balanced a) : fillLiquidationUSD a = a := by
  obtain ⟨hln, hsn, htn, ht, -⟩ := ha
  cases a
  dsimp only at hln hsn htn ht
  subst hln hsn htn
  simp only [fillLiquidationUSD, ite_self, ← ht]

theorem bucketRow (period : String) (b : ℤ) (e : NormalizedLiquidationEvent)
    {es : List NormalizedLiquidationEvent} (hes : ∀ e ∈ es, 0 ≤ eventUSD e) :
    Balanced (bucketRow period b e es) := by
  induction es using List.reverseRecOn with
  | nil => constructor <;> simp [Core.bucketRow, newAggregate]
  | append_singleton es x ih =>
    rw [Core.bucketRow, List.foldl_append]
    exact (ih fun e he => hes e (List.mem_append_left _ he)).addEvent (hes x (by simp))

end Balanced

/-! ## What is derived -/

def inBucket (period : String) (b : ℤ) (es : List NormalizedLiquidationEvent) :
    List NormalizedLiquidationEvent :=
  es.filter fun e => bucketOf period e = b

/-- The events grouped by their buckets. -/
def eventGrouping (period : String) :
    Grouping NormalizedLiquidationEvent NormalizedLiquidationAggregate.bucketTime where
  bucket := bucketOf period
  fresh e := newAggregate period (bucketOf period e) e
  add := addEvent
  key_fresh e := newAggregate_bucketTime period (bucketOf period e) e
  key_add a e := (addEvent_frame a e).2.2

theorem bucket_eventGrouping (period : String) :
    (eventGrouping period).bucket = bucketOf period := by
  simp only [eventGrouping]

theorem members_eventGrouping (period : String) (es : List NormalizedLiquidationEvent) (b : ℤ) :
    (eventGrouping period).members es b = inBucket period b es := by
  rw [Grouping.members, bucket_eventGrouping, inBucket]

theorem row_eventGrouping (period : String) (e : NormalizedLiquidationEvent)
    (es : List NormalizedLiquidationEvent) :
    (eventGrouping period).row e es = bucketRow period (bucketOf period e) e es := by
  simp only [Grouping.row, eventGrouping, bucketRow]

/-- The loop does not skip the event. -/
def counted (event : NormalizedLiquidationEvent) : Bool :=
  !(isZero event.eventTime || event.symbolID = 0)

/-- The loop groups the events that it does not skip. -/
theorem foldl_addToBuckets (period : String) (es : List NormalizedLiquidationEvent) :
    es.foldl (addToBuckets period) Table.empty =
      (eventGrouping period).group (es.filter counted) := by
  rw [Grouping.group, List.foldl_filter]
  refine List.foldl_ext _ _ _ fun t e _ => ?_
  cases hguard : isZero e.eventTime || decide (e.symbolID = 0) with
  | true => simp only [addToBuckets, counted, hguard, Bool.not_true, Bool.false_eq_true, ↓reduceIte]
  | false =>
    simp only [addToBuckets, counted, hguard, Bool.not_false, Bool.false_eq_true, ↓reduceIte]
    rfl

theorem filter_counted {es : List NormalizedLiquidationEvent}
    (hes : ∀ e ∈ es, e.eventTime ≠ 0 ∧ e.symbolID ≠ 0) : es.filter counted = es := by
  refine List.filter_eq_self.2 fun e he => ?_
  obtain ⟨htime, hid⟩ := hes e he
  simp [counted, isZero, htime, hid]

/-- The map holds, for each bucket with an event, the aggregate of its events. -/
theorem find_addToBuckets (period : String) {es : List NormalizedLiquidationEvent}
    (hes : ∀ e ∈ es, e.eventTime ≠ 0 ∧ e.symbolID ≠ 0) (b : ℤ) :
    (es.foldl (addToBuckets period) Table.empty).find b =
      (inBucket period b es).head?.map fun e => bucketRow period b e (inBucket period b es) := by
  rw [foldl_addToBuckets, filter_counted hes, Grouping.find_group, members_eventGrouping]
  refine Option.map_congr fun e he => ?_
  have hb : bucketOf period e = b := by
    simpa using (List.mem_filter.1 (List.mem_of_head? he)).2
  rw [row_eventGrouping, hb]

section Derive
variable {job : Job} {es : List NormalizedLiquidationEvent}

/-- A derived aggregate is that of a bucket with an event. -/
theorem of_mem_derive (hes : ∀ e ∈ es, e.eventTime ≠ 0 ∧ e.symbolID ≠ 0)
    {a : NormalizedLiquidationAggregate} (ha : a ∈ deriveLiquidationAggregates job es) :
    ∃ e ∈ inBucket (liquidationPeriod job) a.bucketTime es,
      a = bucketRow (liquidationPeriod job) a.bucketTime e
        (inBucket (liquidationPeriod job) a.bucketTime es) := by
  have hfind := Table.find_of_mem (Table.mem_rows.1 ha)
  rw [find_addToBuckets _ hes, Option.map_eq_some_iff] at hfind
  obtain ⟨e, he, hrow⟩ := hfind
  exact ⟨e, List.mem_of_head? he, hrow.symm⟩

/-- Every bucket with an event has its aggregate. -/
theorem mem_derive (job : Job) (hes : ∀ e ∈ es, e.eventTime ≠ 0 ∧ e.symbolID ≠ 0)
    {e : NormalizedLiquidationEvent} (he : e ∈ es) :
    ∃ a ∈ deriveLiquidationAggregates job es,
      a.bucketTime = bucketOf (liquidationPeriod job) e := by
  have hin : e ∈ inBucket (liquidationPeriod job) (bucketOf (liquidationPeriod job) e) es :=
    List.mem_filter.2 ⟨he, by simp⟩
  have hfind := find_addToBuckets (liquidationPeriod job) hes (bucketOf (liquidationPeriod job) e)
  obtain ⟨x, hx⟩ := Option.ne_none_iff_exists'.1
    (mt List.head?_eq_none_iff.1 (List.ne_nil_of_mem hin))
  rw [hx, Option.map_some, Table.find_eq_some] at hfind
  exact ⟨_, hfind.1, hfind.2⟩

end Derive

/-! ## What a call does to the rows of a series -/

/-- The key of a row of the series. -/
def rowKey (s : Series) (b : ℤ) : BucketKey := ⟨s.symbolID, s.exchange, s.period, b⟩

/-- The rows of the series stay as they are. -/
def SameRows (s : Series) (db db' : LiquidationDB) : Prop :=
  ∀ b, db'.aggregates.find (rowKey s b) = db.aggregates.find (rowKey s b)

instance (s : Series) : Std.Refl (SameRows s) := ⟨fun _ _ => rfl⟩

instance (s : Series) : IsTrans LiquidationDB (SameRows s) :=
  ⟨fun _ _ _ h h' b => (h' b).trans (h b)⟩

theorem exec_transaction (f : LiquidationDB → Except String (ℕ × LiquidationDB))
    (db : LiquidationDB) :
    exec (transaction f) db =
      match f db with
      | .ok r => (.ok (), r.2)
      | .error e => (.error e, db) := by
  have hget : exec (transaction f) db = exec (match f db with
      | .ok (_, db') => set db'
      | .error e => throw e : Store Unit) db := rfl
  rw [hget]
  cases f db <;> rfl

theorem transaction_sameRows {s : Series} {f : LiquidationDB → Except String (ℕ × LiquidationDB)}
    (hf : ∀ db r, f db = .ok r → SameRows s db r.2) : Effect (SameRows s) (transaction f) := by
  intro db
  rw [exec_transaction]
  cases h : f db with
  | error e => exact Std.Refl.refl db
  | ok r => exact hf db r h

/-- Aggregates of other series leave the rows of the series alone. -/
theorem storeAggregates_sameRows {s : Series} {items : List NormalizedLiquidationAggregate}
    (h : ∀ a ∈ items, ∀ b, bucketKey a ≠ rowKey s b) :
    Effect (SameRows s) (storeAggregates items) := by
  unfold storeAggregates
  split
  · refine transaction_sameRows fun db r hr b => ?_
    exact upsertLiquidationAggregates_find hr fun a ha => h a ha b
  · exact Effect.pure ()

/-- Storing events leaves the aggregates alone. -/
theorem storeEvents_sameRows (s : Series) (w : RepositoryWriter) (call : Call) :
    Effect (SameRows s) (w.storeEvents call) := by
  refine Effect.bind ?_ fun _ => ?_
  · unfold RepositoryWriter.reportIssues
    split
    · intro db
      cases call.report <;> exact Std.Refl.refl db
    · exact Effect.pure ()
  · split
    · refine transaction_sameRows fun db r hr b => ?_
      rw [upsertLiquidationEvents_aggregates hr]
    · exact Effect.pure ()

/-- Aggregates of different buckets that pass the checks become the rows of
    their buckets. -/
theorem storeAggregates_returns {items : List NormalizedLiquidationAggregate}
    (hv : ∀ a ∈ items, validateLiquidationAggregate a = .ok () ∧ fillLiquidationUSD a = a ∧
      a.exchange = toLower a.exchange)
    (hnd : (items.map bucketKey).Nodup) (db : LiquidationDB) :
    Returns (storeAggregates items) db fun _ db' =>
      (∀ a ∈ items, db'.aggregates.find (bucketKey a) = some a) ∧
      ∀ k, (∀ a ∈ items, bucketKey a ≠ k) → db'.aggregates.find k = db.aggregates.find k := by
  obtain ⟨n, aggregates, hok, hin, hout⟩ := upsertLiquidationAggregates_ok hv hnd db
  unfold storeAggregates
  split
  · exact ⟨(), _, by rw [exec_transaction, hok], hin, hout⟩
  · rename_i hnil
    obtain rfl := not_not.1 hnil
    exact Returns.pure ⟨by simp, fun _ _ => rfl⟩

/-! ## Derived rows pass the checks -/

theorem validSeriesPeriod {period : String} (h : period = "1m" ∨ period = "5m") :
    validatePeriod period = .ok () := by
  rcases h with rfl | rfl <;> decide +kernel

section Derived
variable {job : Job} {s : Series} {es : List NormalizedLiquidationEvent}

/-- Events that pass their check are counted. -/
theorem counted_of_valid (h : ∀ e ∈ es, validateLiquidationEvent e = .ok ()) :
    ∀ e ∈ es, e.eventTime ≠ 0 ∧ e.symbolID ≠ 0 := by
  intro e he
  obtain ⟨hsource, -, htime, -⟩ := validateLiquidationEvent_iff.1 (h e he)
  exact ⟨htime, (validateSource_iff.1 hsource).1.ne'⟩

theorem derived_balanced (h : ∀ e ∈ es, validateLiquidationEvent e = .ok ())
    {a : NormalizedLiquidationAggregate} (ha : a ∈ deriveLiquidationAggregates job es) :
    Balanced a := by
  obtain ⟨e, -, hrow⟩ := of_mem_derive (counted_of_valid h) ha
  rw [hrow]
  exact Balanced.bucketRow _ _ _ fun x hx => liquidationUSD_nonneg (h x (List.mem_of_mem_filter hx))

/-- **A derived row** passes its check exactly if the period of the job does and
    the bucket is not the zero time. -/
theorem derived_valid_iff (h : ∀ e ∈ es, validateLiquidationEvent e = .ok ())
    {a : NormalizedLiquidationAggregate} (ha : a ∈ deriveLiquidationAggregates job es) :
    validateLiquidationAggregate a = .ok () ↔
      a.bucketTime ≠ 0 ∧ validatePeriod (liquidationPeriod job) = .ok () := by
  obtain ⟨e, he, hrow⟩ := of_mem_derive (counted_of_valid h) ha
  have hframe := bucketRow_frame (liquidationPeriod job) a.bucketTime e
    (inBucket (liquidationPeriod job) a.bucketTime es)
  rw [← hrow] at hframe
  obtain ⟨hsource, hperiod, -⟩ := hframe
  rw [← hperiod]
  refine ⟨validateLiquidationAggregate_time, ?_⟩
  rintro ⟨htime, hvalid⟩
  have hbal := derived_balanced h ha
  have htotal := hbal.total_nonneg
  refine validateLiquidationAggregate_ok ?_ htime hvalid ?_ ?_
  · rw [hsource]
    exact (validateLiquidationEvent_iff.1 (h e (List.mem_of_mem_filter he))).1
  · rw [hbal.longNotional, hbal.shortNotional, hbal.totalNotional]
    exact ⟨hbal.long_nonneg, hbal.short_nonneg, htotal⟩
  · exact ⟨hbal.long_nonneg, hbal.short_nonneg, htotal, hbal.largest_nonneg⟩

/-- The bucket of a derived row is that of an event. -/
theorem bucketOf_of_mem_derive (h : ∀ e ∈ es, validateLiquidationEvent e = .ok ())
    {a : NormalizedLiquidationAggregate} (ha : a ∈ deriveLiquidationAggregates job es) :
    ∃ e ∈ es, bucketOf (liquidationPeriod job) e = a.bucketTime := by
  obtain ⟨e, he, -⟩ := of_mem_derive (counted_of_valid h) ha
  exact ⟨e, List.mem_of_mem_filter he, by simpa using (List.mem_filter.1 he).2⟩

/-- Events of the series, of which the repository accepts each. -/
structure EventsOf (s : Series) (es : List NormalizedLiquidationEvent) : Prop where
  valid : ∀ e ∈ es, validateLiquidationEvent e = .ok ()
  source : ∀ e ∈ es, e.symbolID = s.symbolID ∧ e.exchange = s.exchange

theorem EventsOf.bucketKey (h : EventsOf s es) (hjob : liquidationPeriod job = s.period)
    {a : NormalizedLiquidationAggregate} (ha : a ∈ deriveLiquidationAggregates job es) :
    bucketKey a = rowKey s a.bucketTime := by
  obtain ⟨e, he, hrow⟩ := of_mem_derive (counted_of_valid h.valid) ha
  obtain ⟨hid, hex⟩ := h.source e (List.mem_of_mem_filter he)
  obtain ⟨hsource, hperiod, -⟩ := bucketRow_frame (liquidationPeriod job) a.bucketTime e
    (inBucket (liquidationPeriod job) a.bucketTime es)
  rw [← hrow] at hsource hperiod
  simp only [Repositories.bucketKey, rowKey, BucketKey.mk.injEq, and_true]
  exact ⟨by rw [hsource, hid], by rw [hsource, hex], hperiod.trans hjob⟩

/-- The repository accepts the derived rows and stores them as they are. -/
theorem EventsOf.derived_valid (h : EventsOf s es) (hjob : liquidationPeriod job = s.period)
    (hperiod : s.period = "1m" ∨ s.period = "5m") (hlower : s.exchange = toLower s.exchange)
    (hzero : ∀ e ∈ es, bucketOf s.period e ≠ 0) {a : NormalizedLiquidationAggregate}
    (ha : a ∈ deriveLiquidationAggregates job es) :
    validateLiquidationAggregate a = .ok () ∧ fillLiquidationUSD a = a ∧
      a.exchange = toLower a.exchange := by
  obtain ⟨e, he, hb⟩ := bucketOf_of_mem_derive h.valid ha
  have htime : a.bucketTime ≠ 0 := by
    rw [← hb, hjob]
    exact hzero e he
  have hvalid : validatePeriod (liquidationPeriod job) = .ok () := by
    rw [hjob]
    exact validSeriesPeriod hperiod
  have hex : a.exchange = s.exchange := congrArg BucketKey.exchange (h.bucketKey hjob ha)
  exact ⟨(derived_valid_iff h.valid ha).2 ⟨htime, hvalid⟩, (derived_balanced h.valid ha).fill,
    by rw [hex, ← hlower]⟩

/-- The derived rows have different keys. -/
theorem EventsOf.derived_nodup (h : EventsOf s es) (hjob : liquidationPeriod job = s.period) :
    ((deriveLiquidationAggregates job es).map Repositories.bucketKey).Nodup := by
  have hkeys : (deriveLiquidationAggregates job es).map Repositories.bucketKey =
      ((deriveLiquidationAggregates job es).map fun a => a.bucketTime).map (rowKey s) := by
    rw [List.map_map]
    exact List.map_congr_left fun a ha => h.bucketKey hjob ha
  rw [hkeys]
  refine List.Nodup.map (fun b b' hb => ?_) (Table.nodup _)
  exact congrArg BucketKey.bucketTime hb

end Derived

end Aggregator.Collectors.Core
