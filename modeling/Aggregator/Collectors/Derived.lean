/-
  The aggregates derived from liquidation events, with where they come from
  (`internal/collectors/core/writer.go`: `deriveLiquidationAggregates`).

  An aggregate takes its source endpoint and its raw data from the first event of
  its bucket.  The rest of the model leaves these two fields out
  (`deriveSourced_forget`).

  * `Folds.addEvent`, `folds_bucketRow`: an aggregate is the fold of its events;
  * `sumsAgree_group`: counts and sums are conserved;
  * `derive_conserves`: all of this, and that the aggregates depend on the order of
    the events exactly through the first event of a bucket.
-/
import Aggregator.Collectors.Writer
import Aggregator.Repositories.Windows

namespace Aggregator.Collectors.Core

open Aggregator.Go Aggregator.Normalizers Aggregator.Scheduler Aggregator.Repositories

/-! ## Events with their source -/

/-- A liquidation event with the rest of its `SourceMeta`. -/
structure SourcedEvent extends NormalizedLiquidationEvent where
  sourceEndpointID : ℤ
  rawData : Option Json

/-- A liquidation aggregate with the rest of its `SourceMeta`. -/
structure SourcedAggregate extends NormalizedLiquidationAggregate where
  sourceEndpointID : ℤ
  rawData : Option Json

/-- The aggregate a bucket starts with, at its first event. -/
def newSourced (period : String) (event : SourcedEvent) : SourcedAggregate where
  toNormalizedLiquidationAggregate :=
    newAggregate period (bucketOf period event.toNormalizedLiquidationEvent)
      event.toNormalizedLiquidationEvent
  sourceEndpointID := event.sourceEndpointID
  rawData := event.rawData

/-- The body of the loop over the events. -/
def addSourced (aggregate : SourcedAggregate) (event : SourcedEvent) : SourcedAggregate :=
  { aggregate with
    toNormalizedLiquidationAggregate :=
      addEvent aggregate.toNormalizedLiquidationAggregate event.toNormalizedLiquidationEvent }

def sourcedGrouping (period : String) :
    Grouping SourcedEvent fun a : SourcedAggregate => a.bucketTime where
  bucket e := bucketOf period e.toNormalizedLiquidationEvent
  fresh := newSourced period
  add := addSourced
  key_fresh e := newAggregate_bucketTime period _ e.toNormalizedLiquidationEvent
  key_add a e :=
    (addEvent_frame a.toNormalizedLiquidationAggregate e.toNormalizedLiquidationEvent).2.2

section
variable (period : String)

theorem bucket_sourcedGrouping : (sourcedGrouping period).bucket =
    fun e => bucketOf period e.toNormalizedLiquidationEvent := by
  simp only [sourcedGrouping]

theorem fresh_sourcedGrouping : (sourcedGrouping period).fresh = newSourced period := by
  simp only [sourcedGrouping]

theorem add_sourcedGrouping : (sourcedGrouping period).add = addSourced := by
  simp only [sourcedGrouping]

end

/-- `deriveLiquidationAggregates`. -/
def deriveSourced (job : Job) (events : List SourcedEvent) : List SourcedAggregate :=
  (events.foldl (fun buckets event =>
    if isZero event.eventTime || event.symbolID = 0 then buckets
    else (sourcedGrouping (liquidationPeriod job)).put buckets event) Table.empty).rows

/-- The loop groups the events that it does not skip. -/
theorem deriveSourced_eq (job : Job) (events : List SourcedEvent) :
    deriveSourced job events = ((sourcedGrouping (liquidationPeriod job)).group
      (events.filter fun e => counted e.toNormalizedLiquidationEvent)).rows := by
  rw [deriveSourced, Grouping.group, List.foldl_filter]
  congr 1
  refine List.foldl_ext _ _ _ fun t e _ => ?_
  cases hguard : isZero e.eventTime || decide (e.symbolID = 0) with
  | true => simp only [counted, hguard, Bool.not_true, Bool.false_eq_true, ↓reduceIte]
  | false => simp only [counted, hguard, Bool.not_false, Bool.false_eq_true, ↓reduceIte]

/-- Without the two fields these are the aggregates of the rest of the model. -/
theorem deriveSourced_forget (job : Job) (events : List SourcedEvent) :
    (deriveSourced job events).map (·.toNormalizedLiquidationAggregate) =
      deriveLiquidationAggregates job (events.map (·.toNormalizedLiquidationEvent)) := by
  rw [deriveSourced_eq, deriveLiquidationAggregates, foldl_addToBuckets, List.filter_map]
  refine Grouping.rows_group_map (f := SourcedAggregate.toNormalizedLiquidationAggregate)
    (φ := SourcedEvent.toNormalizedLiquidationEvent) (fun _ => rfl) (fun e => ?_) (fun a e => ?_) _
  · simp only [fresh_sourcedGrouping, eventGrouping, newSourced]
  · simp only [add_sourcedGrouping, eventGrouping, addSourced]

/-! ## The fold of the events of a bucket -/

/-- The aggregate has the counts and sums of the events. -/
structure Folds (a : NormalizedLiquidationAggregate) (es : List NormalizedLiquidationEvent) :
    Prop where
  longCount : a.longLiquidationCount = (es.filter isLong).length
  shortCount : a.shortLiquidationCount = (es.filter (!isLong ·)).length
  longUSD : a.longLiquidationUSD = ((es.filter isLong).map eventUSD).sum
  shortUSD : a.shortLiquidationUSD = ((es.filter (!isLong ·)).map eventUSD).sum
  totalUSD : a.totalLiquidationUSD = (es.map eventUSD).sum
  longNotional : a.longLiquidationNotional = ((es.filter isLong).map eventUSD).sum
  shortNotional : a.shortLiquidationNotional = ((es.filter (!isLong ·)).map eventUSD).sum
  totalNotional : a.totalLiquidationNotional = (es.map eventUSD).sum
  largest : a.largestLiquidationUSD = (es.map eventUSD).foldl max 0

theorem Folds.addEvent {a : NormalizedLiquidationAggregate} {es : List NormalizedLiquidationEvent}
    (h : Folds a es) (e : NormalizedLiquidationEvent) :
    Folds (addEvent a e) (es ++ [e]) := by
  obtain ⟨hlc, hsc, hl, hs, ht, hln, hsn, htn, hm⟩ := h
  have hmax : (if eventUSD e > a.largestLiquidationUSD then eventUSD e
      else a.largestLiquidationUSD) = max a.largestLiquidationUSD (eventUSD e) :=
    (max_def_lt _ _).symm
  cases hside : isLong e <;> constructor <;>
    simp [Core.addEvent, hside, hlc, hsc, hl, hs, ht, hln, hsn, htn, ← hm, ← hmax]

theorem folds_bucketRow (period : String) (b : ℤ) (e : NormalizedLiquidationEvent)
    (es : List NormalizedLiquidationEvent) : Folds (bucketRow period b e es) es := by
  induction es using List.reverseRecOn with
  | nil => constructor <;> rfl
  | append_singleton es x ih =>
    rw [bucketRow, List.foldl_append]
    exact ih.addEvent x

namespace Folds
variable {a : NormalizedLiquidationAggregate} {es : List NormalizedLiquidationEvent}

/-- Long and short add up to the total. -/
theorem sum_sides (es : List NormalizedLiquidationEvent) :
    ((es.filter isLong).map eventUSD).sum + ((es.filter (!isLong ·)).map eventUSD).sum =
      (es.map eventUSD).sum := by
  induction es with
  | nil => simp
  | cons e es ih =>
    cases hside : isLong e <;> simp [hside, ← ih, add_assoc, add_left_comm]

theorem total_eq (h : Folds a es) :
    a.totalLiquidationUSD = a.longLiquidationUSD + a.shortLiquidationUSD := by
  rw [h.totalUSD, h.longUSD, h.shortUSD, sum_sides]

theorem totalNotional_eq (h : Folds a es) :
    a.totalLiquidationNotional = a.longLiquidationNotional + a.shortLiquidationNotional := by
  rw [h.totalNotional, h.longNotional, h.shortNotional, sum_sides]

theorem count_eq (h : Folds a es) :
    a.longLiquidationCount + a.shortLiquidationCount = es.length := by
  have hlength := List.length_eq_length_filter_add (l := es) isLong
  rw [h.longCount, h.shortCount, hlength]
  push_cast
  rfl

/-- The largest value is the greatest one. -/
theorem largest_eq (h : Folds a es) (hne : es ≠ []) (hnonneg : ∀ e ∈ es, 0 ≤ eventUSD e) :
    (es.map eventUSD).max? = some a.largestLiquidationUSD := by
  rw [h.largest]
  cases es with
  | nil => exact absurd rfl hne
  | cons e es =>
    rw [List.map_cons, List.max?_cons', List.foldl_cons,
      max_eq_right (hnonneg e List.mem_cons_self)]

end Folds

/-! ## Sums -/

/-- The side of an event: `case "sell", "long"`. -/
def SourcedEvent.onLongSide (event : SourcedEvent) : Bool :=
  isLong event.toNormalizedLiquidationEvent

def SourcedEvent.usd (event : SourcedEvent) : ℚ := eventUSD event.toNormalizedLiquidationEvent

/-- The sums over the aggregates are the sums over the events. -/
structure SumsAgree (aggregates : List SourcedAggregate) (events : List SourcedEvent) : Prop where
  longCount : (aggregates.map (·.longLiquidationCount)).sum = (events.filter (·.onLongSide)).length
  shortCount : (aggregates.map (·.shortLiquidationCount)).sum =
    (events.filter (!·.onLongSide)).length
  longUSD : (aggregates.map (·.longLiquidationUSD)).sum =
    ((events.filter (·.onLongSide)).map (·.usd)).sum
  shortUSD : (aggregates.map (·.shortLiquidationUSD)).sum =
    ((events.filter (!·.onLongSide)).map (·.usd)).sum
  totalUSD : (aggregates.map (·.totalLiquidationUSD)).sum = (events.map (·.usd)).sum
  longNotional : (aggregates.map (·.longLiquidationNotional)).sum =
    ((events.filter (·.onLongSide)).map (·.usd)).sum
  shortNotional : (aggregates.map (·.shortLiquidationNotional)).sum =
    ((events.filter (!·.onLongSide)).map (·.usd)).sum
  totalNotional : (aggregates.map (·.totalLiquidationNotional)).sum = (events.map (·.usd)).sum

/-- A variable that every event adds an amount to. -/
theorem sum_all {M : Type} [AddCommMonoid M] {period : String} (value : SourcedAggregate → M)
    {amount : SourcedEvent → M} (hfresh : ∀ e, value (newSourced period e) = 0)
    (hadd : ∀ a e, value (addSourced a e) = value a + amount e) (events : List SourcedEvent) :
    (((sourcedGrouping period).group events).rows.map value).sum = (events.map amount).sum := by
  rw [← fresh_sourcedGrouping] at hfresh
  rw [← add_sourcedGrouping period] at hadd
  exact Grouping.sum_group hfresh hadd events

/-- A variable that the events on one side add an amount to. -/
theorem sum_side {M : Type} [AddCommMonoid M] {period : String} (value : SourcedAggregate → M)
    (side : SourcedEvent → Bool) (amount : SourcedEvent → M)
    (hfresh : ∀ e, value (newSourced period e) = 0)
    (hadd : ∀ a e, value (addSourced a e) = value a + if side e then amount e else 0)
    (events : List SourcedEvent) :
    (((sourcedGrouping period).group events).rows.map value).sum =
      ((events.filter side).map amount).sum := by
  rw [sum_all value hfresh hadd]
  induction events with
  | nil => rfl
  | cons e events ih => cases hside : side e <;> simp [hside, ih]

/-- A bucket starts with nothing. -/
theorem newSourced_amounts (period : String) (e : SourcedEvent) :
    (newSourced period e).longLiquidationCount = 0 ∧
    (newSourced period e).shortLiquidationCount = 0 ∧
    (newSourced period e).longLiquidationUSD = 0 ∧ (newSourced period e).shortLiquidationUSD = 0 ∧
    (newSourced period e).totalLiquidationUSD = 0 ∧
    (newSourced period e).longLiquidationNotional = 0 ∧
    (newSourced period e).shortLiquidationNotional = 0 ∧
    (newSourced period e).totalLiquidationNotional = 0 := by
  simp only [newSourced, newAggregate, and_self]

/-- What an event adds. -/
theorem addSourced_amounts (a : SourcedAggregate) (e : SourcedEvent) :
    (addSourced a e).longLiquidationCount =
      a.longLiquidationCount + (if e.onLongSide then 1 else 0) ∧
    (addSourced a e).shortLiquidationCount =
      a.shortLiquidationCount + (if !e.onLongSide then 1 else 0) ∧
    (addSourced a e).longLiquidationUSD =
      a.longLiquidationUSD + (if e.onLongSide then e.usd else 0) ∧
    (addSourced a e).shortLiquidationUSD =
      a.shortLiquidationUSD + (if !e.onLongSide then e.usd else 0) ∧
    (addSourced a e).totalLiquidationUSD = a.totalLiquidationUSD + e.usd ∧
    (addSourced a e).longLiquidationNotional =
      a.longLiquidationNotional + (if e.onLongSide then e.usd else 0) ∧
    (addSourced a e).shortLiquidationNotional =
      a.shortLiquidationNotional + (if !e.onLongSide then e.usd else 0) ∧
    (addSourced a e).totalLiquidationNotional = a.totalLiquidationNotional + e.usd := by
  cases hside : isLong e.toNormalizedLiquidationEvent <;>
    simp [addSourced, addEvent, hside, SourcedEvent.onLongSide, SourcedEvent.usd]

theorem sumsAgree_group (period : String) (events : List SourcedEvent) :
    SumsAgree ((sourcedGrouping period).group events).rows events := by
  have hnew := newSourced_amounts period
  have hadd := addSourced_amounts
  constructor
  · rw [sum_side (·.longLiquidationCount) SourcedEvent.onLongSide (fun _ => 1)
      (fun e => (hnew e).1) fun a e => (hadd a e).1]
    simp
  · rw [sum_side (·.shortLiquidationCount) (fun e => !e.onLongSide) (fun _ => 1)
      (fun e => (hnew e).2.1) fun a e => (hadd a e).2.1]
    simp
  · exact sum_side (·.longLiquidationUSD) SourcedEvent.onLongSide SourcedEvent.usd
      (fun e => (hnew e).2.2.1) (fun a e => (hadd a e).2.2.1) events
  · exact sum_side (·.shortLiquidationUSD) (fun e => !e.onLongSide) SourcedEvent.usd
      (fun e => (hnew e).2.2.2.1) (fun a e => (hadd a e).2.2.2.1) events
  · exact sum_all _ (fun e => (hnew e).2.2.2.2.1) (fun a e => (hadd a e).2.2.2.2.1) events
  · exact sum_side (·.longLiquidationNotional) SourcedEvent.onLongSide SourcedEvent.usd
      (fun e => (hnew e).2.2.2.2.2.1) (fun a e => (hadd a e).2.2.2.2.2.1) events
  · exact sum_side (·.shortLiquidationNotional) (fun e => !e.onLongSide) SourcedEvent.usd
      (fun e => (hnew e).2.2.2.2.2.2.1) (fun a e => (hadd a e).2.2.2.2.2.2.1) events
  · exact sum_all _ (fun e => (hnew e).2.2.2.2.2.2.2) (fun a e => (hadd a e).2.2.2.2.2.2.2) events

/-! ## The order of the events -/

theorem addEvent_right_comm (a : NormalizedLiquidationAggregate)
    (e e' : NormalizedLiquidationEvent) :
    addEvent (addEvent a e) e' = addEvent (addEvent a e') e := by
  have hmax : ∀ x y : ℚ, (if y > x then y else x) = max x y := fun x y => (max_def_lt x y).symm
  cases hside : isLong e <;> cases hside' : isLong e' <;>
    simp only [addEvent, hside, hside', hmax, add_right_comm, max_right_comm, Bool.false_eq_true,
      ↓reduceIte]

theorem addSourced_right_comm (a : SourcedAggregate) (e e' : SourcedEvent) :
    addSourced (addSourced a e) e' = addSourced (addSourced a e') e := by
  simp only [addSourced, addEvent_right_comm _ e.toNormalizedLiquidationEvent]

/-- The row of a bucket whose first event is `e`. -/
theorem row_sourcedGrouping (period : String) (e : SourcedEvent) (es : List SourcedEvent) :
    (sourcedGrouping period).row e es =
      ⟨bucketRow period (bucketOf period e.toNormalizedLiquidationEvent)
        e.toNormalizedLiquidationEvent (es.map (·.toNormalizedLiquidationEvent)),
        e.sourceEndpointID, e.rawData⟩ := by
  induction es using List.reverseRecOn with
  | nil => rw [Grouping.row, fresh_sourcedGrouping]; rfl
  | append_singleton es x ih =>
    rw [Grouping.row_append, ih, add_sourcedGrouping, List.map_append, bucketRow, bucketRow,
      List.foldl_append]
    rfl

/-- Rows of one bucket that start at different events of the same source agree
    exactly if the events have the same endpoint and the same raw data. -/
theorem row_eq_iff {period : String} {e e' : SourcedEvent} (hsource : e.toSourceMeta = e'.toSourceMeta)
    (hbucket : bucketOf period e.toNormalizedLiquidationEvent =
      bucketOf period e'.toNormalizedLiquidationEvent) (es : List SourcedEvent) :
    (sourcedGrouping period).row e es = (sourcedGrouping period).row e' es ↔
      e.sourceEndpointID = e'.sourceEndpointID ∧ e.rawData = e'.rawData := by
  have hrow : ∀ l, bucketRow period (bucketOf period e.toNormalizedLiquidationEvent)
      e.toNormalizedLiquidationEvent l =
      bucketRow period (bucketOf period e'.toNormalizedLiquidationEvent)
        e'.toNormalizedLiquidationEvent l := by
    intro l
    simp only [bucketRow, newAggregate, hbucket, hsource]
  rw [row_sourcedGrouping, row_sourcedGrouping, hrow, SourcedAggregate.mk.injEq]
  simp

/-! ## What is derived -/

/-- The events of a bucket. -/
def bucketEvents (job : Job) (events : List SourcedEvent) (b : ℤ) : List NormalizedLiquidationEvent :=
  inBucket (liquidationPeriod job) b (events.map (·.toNormalizedLiquidationEvent))

/-- The aggregate shows the events: it is their fold, long and short add up, and the
    largest value is the greatest one. -/
structure Shows (a : NormalizedLiquidationAggregate) (es : List NormalizedLiquidationEvent) :
    Prop where
  folds : Folds a es
  total : a.totalLiquidationUSD = a.longLiquidationUSD + a.shortLiquidationUSD
  totalNotional :
    a.totalLiquidationNotional = a.longLiquidationNotional + a.shortLiquidationNotional
  count : a.longLiquidationCount + a.shortLiquidationCount = es.length
  largest : (es.map eventUSD).max? = some a.largestLiquidationUSD

/-- The events of one series with values that are not negative. -/
def OneSeries (source : SourceMeta) (events : List SourcedEvent) : Prop :=
  ∀ e ∈ events, e.toSourceMeta = source ∧ e.eventTime ≠ 0 ∧ 0 ≤ e.usd

section
variable {job : Job} {source : SourceMeta} {events : List SourcedEvent}

theorem OneSeries.derive_eq (job : Job) (h : OneSeries source events)
    (hid : source.symbolID ≠ 0) :
    deriveSourced job events = ((sourcedGrouping (liquidationPeriod job)).group events).rows := by
  rw [deriveSourced_eq, List.filter_eq_self.2]
  intro e he
  obtain ⟨hsource, htime, -⟩ := h e he
  have hsymbol : e.symbolID ≠ 0 := by rwa [hsource]
  simp [counted, isZero, htime, hsymbol]

theorem OneSeries.perm {events' : List SourcedEvent} (h : OneSeries source events)
    (hperm : events.Perm events') : OneSeries source events' :=
  fun e he => h e (hperm.mem_iff.2 he)

theorem members_sourcedGrouping (period : String) (events : List SourcedEvent) (b : ℤ) :
    ((sourcedGrouping period).members events b).map (·.toNormalizedLiquidationEvent) =
      inBucket period b (events.map (·.toNormalizedLiquidationEvent)) := by
  rw [inBucket, List.filter_map, Grouping.members, bucket_sourcedGrouping]
  simp only [Function.comp_def]

theorem OneSeries.shows (h : OneSeries source events) (hid : source.symbolID ≠ 0)
    {a : SourcedAggregate} (ha : a ∈ deriveSourced job events) :
    Shows a.toNormalizedLiquidationAggregate (bucketEvents job events a.bucketTime) := by
  rw [h.derive_eq job hid] at ha
  obtain ⟨e, he, hrow⟩ := Grouping.mem_group.1 (Table.mem_rows.1 ha)
  have hmem := List.mem_of_head? he
  have hfolds : Folds a.toNormalizedLiquidationAggregate (bucketEvents job events a.bucketTime) := by
    rw [bucketEvents, ← members_sourcedGrouping]
    rw [row_sourcedGrouping] at hrow
    nth_rewrite 1 [← hrow]
    exact folds_bucketRow _ _ _ _
  refine ⟨hfolds, hfolds.total_eq, hfolds.totalNotional_eq, hfolds.count_eq, hfolds.largest_eq ?_ ?_⟩
  · rw [bucketEvents, ← members_sourcedGrouping]
    exact List.ne_nil_of_mem (List.mem_map_of_mem hmem)
  · intro x hx
    rw [bucketEvents, ← members_sourcedGrouping] at hx
    obtain ⟨y, hy, rfl⟩ := List.mem_map.1 hx
    exact (h y (Grouping.mem_members.1 hy).1).2.2

/-- The order of the events decides between rows of the first event only. -/
theorem OneSeries.derive_perm_iff (h : OneSeries source events) (hid : source.symbolID ≠ 0) :
    (∀ events', events.Perm events' →
        ∀ a, a ∈ deriveSourced job events ↔ a ∈ deriveSourced job events') ↔
      ∀ e ∈ events, ∀ e' ∈ events,
        bucketOf (liquidationPeriod job) e.toNormalizedLiquidationEvent =
          bucketOf (liquidationPeriod job) e'.toNormalizedLiquidationEvent →
        e.sourceEndpointID = e'.sourceEndpointID ∧ e.rawData = e'.rawData := by
  have hcomm : ∀ a e e', (sourcedGrouping (liquidationPeriod job)).add
      ((sourcedGrouping (liquidationPeriod job)).add a e) e' =
      (sourcedGrouping (liquidationPeriod job)).add
        ((sourcedGrouping (liquidationPeriod job)).add a e') e := by
    rw [add_sourcedGrouping]
    exact addSourced_right_comm
  have hmem : ∀ {l}, OneSeries source l → ∀ a, a ∈ deriveSourced job l ↔
      a ∈ (sourcedGrouping (liquidationPeriod job)).group l := fun hl a => by
    rw [hl.derive_eq job hid, Table.mem_rows]
  calc (∀ events', events.Perm events' →
        ∀ a, a ∈ deriveSourced job events ↔ a ∈ deriveSourced job events')
      ↔ ∀ events', events.Perm events' →
        ∀ a, a ∈ (sourcedGrouping (liquidationPeriod job)).group events ↔
          a ∈ (sourcedGrouping (liquidationPeriod job)).group events' :=
        forall₂_congr fun events' hp => forall_congr' fun a => by
          rw [hmem h, hmem (h.perm hp)]
    _ ↔ _ := Grouping.group_perm_iff hcomm
    _ ↔ _ := forall₄_congr fun e he e' he' => by
        rw [bucket_sourcedGrouping]
        refine forall_congr' fun hb => row_eq_iff ?_ hb _
        rw [(h e he).1, (h e' he').1]

/-- **What is derived** from the events of one series: one aggregate for each bucket,
    which shows the events of the bucket; counts and sums are conserved; and the
    aggregates do not depend on the order of the events exactly if the events of a
    bucket have the same endpoint and raw data. -/
theorem derive_conserves (hid : source.symbolID ≠ 0) (h : OneSeries source events) :
    ((deriveSourced job events).map (·.bucketTime)).Nodup ∧
    (∀ b, b ∈ (deriveSourced job events).map (·.bucketTime) ↔
      ∃ e ∈ events, bucketOf (liquidationPeriod job) e.toNormalizedLiquidationEvent = b) ∧
    (∀ a ∈ deriveSourced job events,
      Shows a.toNormalizedLiquidationAggregate (bucketEvents job events a.bucketTime)) ∧
    SumsAgree (deriveSourced job events) events ∧
    ((∀ events', events.Perm events' →
        ∀ a, a ∈ deriveSourced job events ↔ a ∈ deriveSourced job events') ↔
      ∀ e ∈ events, ∀ e' ∈ events,
        bucketOf (liquidationPeriod job) e.toNormalizedLiquidationEvent =
          bucketOf (liquidationPeriod job) e'.toNormalizedLiquidationEvent →
        e.sourceEndpointID = e'.sourceEndpointID ∧ e.rawData = e'.rawData) := by
  have hderive := h.derive_eq job hid
  refine ⟨?_, fun b => ?_, fun a ha => h.shows hid ha, ?_, h.derive_perm_iff hid⟩
  · rw [hderive]
    exact Table.nodup _
  · rw [hderive, Grouping.mem_keys_group, bucket_sourcedGrouping]
  · rw [hderive]
    exact sumsAgree_group _ _

end

/-! ### One bucket -/

/-- A liquidation of binance. -/
def binanceEvent (time : ℤ) (side : String) (usd : ℚ) (raw : Json) : SourcedEvent :=
  ⟨⟨⟨1, "binance", "BTCUSDT"⟩, "a", time, side, none, none, none, some usd, "", ""⟩, 3, some raw⟩

def liquidationJob : Job :=
  .planned 7 "binance" "liquidation_event" "top100" 1 "BTCUSDT" "5m" 100 3 .null 0

theorem derive_conserves_three :
    let events := [binanceEvent (6 * minute) "sell" 10 .null, binanceEvent (7 * minute) "buy" 20 .null,
      binanceEvent (12 * minute) "long" 30 .null]
    ((deriveSourced liquidationJob events).map (·.bucketTime)).Nodup ∧
    (∀ a ∈ deriveSourced liquidationJob events,
      Shows a.toNormalizedLiquidationAggregate
        (bucketEvents liquidationJob events a.bucketTime)) ∧
    SumsAgree (deriveSourced liquidationJob events) events ∧
    (deriveSourced liquidationJob events).length = 2 := by
  intro events
  have hevents : OneSeries ⟨1, "binance", "BTCUSDT"⟩ events := by
    intro e he
    simp only [events, List.mem_cons, List.not_mem_nil, or_false] at he
    rcases he with rfl | rfl | rfl <;> exact ⟨rfl, by decide, by decide +kernel⟩
  obtain ⟨hnodup, -, hshows, hsums, -⟩ := @derive_conserves liquidationJob _ events (by decide) hevents
  exact ⟨hnodup, hshows, hsums, by decide +kernel⟩

/-- The order of two events decides whether the bucket has a bad status. -/
theorem derive_order_dependent :
    let failed := binanceEvent (6 * minute) "sell" 10 (.obj [("status", .str "failed")])
    let filled := binanceEvent (7 * minute) "sell" 20 (.obj [("status", .str "filled")])
    (deriveSourced liquidationJob [failed, filled]).map
      (fun a => (a.totalLiquidationUSD, a.rawData.map statusLeftOut)) = [(30, some true)] ∧
    (deriveSourced liquidationJob [filled, failed]).map
      (fun a => (a.totalLiquidationUSD, a.rawData.map statusLeftOut)) = [(30, some false)] := by
  decide +kernel

end Aggregator.Collectors.Core
