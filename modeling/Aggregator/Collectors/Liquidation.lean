/-
  The rows of `liquidation_aggregates` over a sequence of calls of
  `RepositoryWriter.Write`.

  The calls are those of jobs of one series (symbol, exchange, period), and an
  event key identifies an event.  A state is the two tables and the set of
  events written so far.  A derived aggregate replaces the row of its bucket, so
  the row is right only if the batch holds every event of the bucket.

  * `System.matches_of_run`: in a run whose calls each deliver the buckets they
    touch completely (`Call.Complete`), every row shows the distinct events
    written so far;
  * `System.second_batch_replaces`: two calls that split a bucket leave the
    events of the second one only.
-/
import Aggregator.Collectors.Writer

namespace Aggregator.Collectors.Core

open Aggregator.Go Aggregator.Normalizers Aggregator.Scheduler Aggregator.Hardening
open Aggregator.Repositories

/-- The tables, and the events written so far. -/
structure System where
  db : LiquidationDB
  written : Table NormalizedLiquidationEvent.eventKey

namespace Call

/-- A call for the series, whose events are identified by their keys. -/
def Belongs (w : RepositoryWriter) (s : Series)
    (written : Table NormalizedLiquidationEvent.eventKey) (call : Call) : Prop :=
  liquidationPeriod call.job = s.period ∧
  (∀ e ∈ call.events w, e.symbolID = s.symbolID ∧ e.exchange = s.exchange) ∧
  ∀ e ∈ written.rows ++ call.events w, ∀ e' ∈ call.events w, e.eventKey = e'.eventKey → e = e'

instance (w : RepositoryWriter) (s : Series)
    (written : Table NormalizedLiquidationEvent.eventKey) (call : Call) :
    Decidable (call.Belongs w s written) := inferInstanceAs (Decidable (_ ∧ _ ∧ _))

/-- The call delivers the buckets it touches completely: no event twice, and
    with an event every event of its bucket written before.  It carries no
    aggregate of the series itself, and the repository accepts the exchange and
    the buckets. -/
def Complete (w : RepositoryWriter) (s : Series) (sys : System) (call : Call) : Prop :=
  (call.events w).Nodup ∧
  (∀ e ∈ sys.written.rows, ∀ e' ∈ call.events w,
    bucketOf s.period e = bucketOf s.period e' → e ∈ call.events w) ∧
  (∀ a ∈ call.aggregates w,
    ¬(a.symbolID = s.symbolID ∧ a.exchange = s.exchange ∧ a.period = s.period)) ∧
  s.exchange = toLower s.exchange ∧ ∀ e ∈ call.events w, bucketOf s.period e ≠ 0

instance (w : RepositoryWriter) (s : Series) (sys : System) (call : Call) :
    Decidable (call.Complete w s sys) := inferInstanceAs (Decidable (_ ∧ _ ∧ _ ∧ _ ∧ _))

end Call

namespace System

/-- A call of `Write`; its events are written once their transaction is
    committed. -/
def step (w : RepositoryWriter) (s : Series) (sys : System) (call : Call) : Option System :=
  if call.Belongs w s sys.written then
    some
      { db := (exec (w.write call) sys.db).2
        written := match (exec (w.storeEvents call) sys.db).1 with
          | .ok _ => sys.written.insertAll (call.events w)
          | .error _ => sys.written }
  else none

/-- What the row of a bucket shows. -/
def shown (s : Series) (sys : System) (b : ℤ) : Option Totals :=
  (sys.db.aggregates.find (rowKey s b)).map totals

/-- The events of a bucket. -/
def eventsIn (s : Series) (written : Table NormalizedLiquidationEvent.eventKey) (b : ℤ) :
    Finset NormalizedLiquidationEvent :=
  written.rows.toFinset.filter fun e => bucketOf s.period e = b

/-- What the row of a bucket is to show. -/
def due (s : Series) (sys : System) (b : ℤ) : Option Totals :=
  if eventsIn s sys.written b = ∅ then none else some (.of (eventsIn s sys.written b))

def Matches (s : Series) (sys : System) : Prop := ∀ b, sys.shown s b = sys.due s b

/-! ## One call -/

section Step
variable {w : RepositoryWriter} {s : Series} {sys : System} {call : Call}

theorem mem_eventsIn {written : Table NormalizedLiquidationEvent.eventKey} {b : ℤ}
    {e : NormalizedLiquidationEvent} :
    e ∈ eventsIn s written b ↔ e ∈ written ∧ bucketOf s.period e = b := by
  rw [eventsIn, Finset.mem_filter, List.mem_toFinset, Table.mem_rows]

theorem mem_insertAll_events (h : call.Belongs w s sys.written) {e : NormalizedLiquidationEvent} :
    e ∈ sys.written.insertAll (call.events w) ↔ e ∈ sys.written ∨ e ∈ call.events w :=
  Table.mem_insertAll_iff fun r hr => h.2.2 r (List.mem_append.2 hr)

/-- In a bucket the call touches, the events so far are those of the call. -/
theorem eventsIn_touched (h : call.Belongs w s sys.written) (hc : call.Complete w s sys) {b : ℤ}
    (hb : ∃ e ∈ call.events w, bucketOf s.period e = b) :
    eventsIn s (sys.written.insertAll (call.events w)) b =
      (inBucket s.period b (call.events w)).toFinset := by
  obtain ⟨e', he', rfl⟩ := hb
  ext e
  rw [mem_eventsIn, mem_insertAll_events h, List.mem_toFinset, inBucket, List.mem_filter,
    decide_eq_true_iff]
  constructor
  · rintro ⟨hold | hnew, hbucket⟩
    · exact ⟨hc.2.1 e hold e' he' hbucket, hbucket⟩
    · exact ⟨hnew, hbucket⟩
  · rintro ⟨hnew, hbucket⟩
    exact ⟨.inr hnew, hbucket⟩

/-- In another bucket they are those before the call. -/
theorem eventsIn_untouched (h : call.Belongs w s sys.written) {b : ℤ}
    (hb : ¬∃ e ∈ call.events w, bucketOf s.period e = b) :
    eventsIn s (sys.written.insertAll (call.events w)) b = eventsIn s sys.written b := by
  ext e
  rw [mem_eventsIn, mem_insertAll_events h, mem_eventsIn]
  constructor
  · rintro ⟨hold | hnew, hbucket⟩
    · exact ⟨hold, hbucket⟩
    · exact absurd ⟨e, hnew, hbucket⟩ hb
  · rintro ⟨hold, hbucket⟩
    exact ⟨.inl hold, hbucket⟩

theorem eventsOf_call (h : call.Belongs w s sys.written) : EventsOf s (call.events w) :=
  ⟨fun _ he => validate_of_mem_filter he, h.2.1⟩

/-- The derived aggregates become the rows of the buckets the call touches. -/
theorem storeDerived_returns (hp : s.period = "1m" ∨ s.period = "5m")
    (h : call.Belongs w s sys.written) (hc : call.Complete w s sys) (db : LiquidationDB) :
    Returns (w.storeDerived call) db fun _ db' => ∀ b,
      (db'.aggregates.find (rowKey s b)).map totals =
        if ∃ e ∈ call.events w, bucketOf s.period e = b then
          some (.of (inBucket s.period b (call.events w)).toFinset)
        else (db.aggregates.find (rowKey s b)).map totals := by
  have hev := eventsOf_call h
  obtain ⟨hnd, -, -, hlower, hzero⟩ := hc
  unfold RepositoryWriter.storeDerived
  split
  · refine (storeAggregates_returns (fun a ha => hev.derived_valid h.1 hp hlower hzero ha)
      (hev.derived_nodup h.1) db).mono ?_
    rintro - db' ⟨hin, hout⟩ b
    by_cases hb : ∃ e ∈ call.events w, bucketOf s.period e = b
    · rw [if_pos hb]
      obtain ⟨e, he, rfl⟩ := hb
      obtain ⟨a, ha, hbucket⟩ := mem_derive call.job (counted_of_valid hev.valid) he
      rw [h.1] at hbucket
      obtain ⟨x, -, hrow⟩ := of_mem_derive (counted_of_valid hev.valid) ha
      have hfind := hin a ha
      rw [hev.bucketKey h.1 ha, hbucket] at hfind
      rw [hfind, Option.map_some, hrow, h.1, hbucket]
      exact congrArg some (totals_bucketRow _ _ _ (hnd.filter _))
    · rw [if_neg hb, hout]
      intro a ha hkey
      obtain ⟨x, hx, -⟩ := of_mem_derive (counted_of_valid hev.valid) ha
      obtain ⟨hx, hbucket⟩ := List.mem_filter.1 hx
      rw [hev.bucketKey h.1 ha] at hkey
      refine hb ⟨x, hx, ?_⟩
      rw [← h.1, of_decide_eq_true hbucket]
      exact congrArg BucketKey.bucketTime hkey
  · rename_i hnil
    rw [not_not.1 hnil]
    exact Returns.pure fun b => by simp

/-- **A complete call keeps every row right.** -/
theorem matches_step (hp : s.period = "1m" ∨ s.period = "5m") {t : System}
    (hm : sys.Matches s) (hc : call.Complete w s sys) (hs : sys.step w s call = some t) :
    t.Matches s := by
  unfold step at hs
  split at hs
  case isFalse => cases hs
  case isTrue h =>
    obtain rfl := Option.some.inj hs
    have hsame := storeEvents_sameRows s w call sys.db
    rcases hev : exec (w.storeEvents call) sys.db with ⟨e | _, db₁⟩ <;> rw [hev] at hsame
    · -- the events are not stored, and nothing after them is
      intro b
      have hwrite : exec (w.write call) sys.db = (.error e, db₁) := exec_bind_error hev
      simp only [shown, due, hwrite, hsame b]
      exact hm b
    · obtain ⟨⟨⟩, db₂, hderived, hrows⟩ := storeDerived_returns hp h hc db₁
      have hwrite : exec (w.write call) sys.db =
          exec (storeAggregates (call.aggregates w)) db₂ := by
        rw [RepositoryWriter.write, exec_bind_ok hev, exec_bind_ok hderived]
      have hcarried := storeAggregates_sameRows (s := s)
        (fun a ha b hk => hc.2.2.1 a ha
          ⟨congrArg BucketKey.symbolID hk, congrArg BucketKey.exchange hk,
            congrArg BucketKey.period hk⟩) db₂
      intro b
      have hold := hm b
      simp only [shown, due] at hold ⊢
      rw [hwrite, hcarried b, hrows b]
      by_cases hb : ∃ e ∈ call.events w, bucketOf s.period e = b
      · rw [if_pos hb, eventsIn_touched h hc hb, if_neg]
        obtain ⟨e, he, hbucket⟩ := hb
        refine Finset.ne_empty_of_mem (a := e) (List.mem_toFinset.2 (List.mem_filter.2 ⟨he, ?_⟩))
        exact decide_eq_true hbucket
      · rw [if_neg hb, eventsIn_untouched h hb, hsame b]
        exact hold

end Step

/-! ## Runs -/

/-- **Every row shows the distinct events written so far**, in every run whose
    calls are complete, from tables without a row of the series. -/
theorem matches_of_run (w : RepositoryWriter) (s : Series)
    (hp : s.period = "1m" ∨ s.period = "5m") {db : LiquidationDB}
    (hdb : ∀ b, db.aggregates.find (rowKey s b) = none) {calls : List Call} {t : System}
    (h : Run (Restrict (fun sys call sys' => step w s sys call = some sys') fun sys call =>
      call.Complete w s sys) ⟨db, Table.empty⟩ calls t) :
    t.Matches s := by
  refine h.inv (I := fun sys => sys.Matches s) ?_ fun b => ?_
  · rintro sys call sys' hm ⟨hc, hs⟩
    exact matches_step hp hm hc hs
  · rw [shown, hdb b]
    rfl

section Examples

def writer : RepositoryWriter := ⟨1000, defaultValidationConfig, fun _ => "liquidation"⟩

def btc : Series := ⟨1, "binance", "1m"⟩

/-- A liquidated long of the given value, so many seconds after the zero time. -/
def sold (key : String) (time : ℤ) (usd : ℚ) : NormalizedLiquidationEvent :=
  ⟨⟨1, "binance", "BTCUSDT"⟩, key, time * second, "sell", none, none, none, some usd, "", ""⟩

def delivery (events : List NormalizedLiquidationEvent) : Call where
  job := .planned 7 "binance" "liquidation" "all" 1 "BTCUSDT" "1m" 100 3 .null 0
  liquidationEvents := events
  liquidationAggregates := []
  now := hour
  report := .ok ()

def noTables : LiquidationDB := ⟨Table.empty, Table.empty⟩

/-- The second call repeats the first event of the minute beside the new one. -/
theorem matches_of_run_redelivered :
    ∃ t, Run (Restrict (fun sys call sys' => step writer btc sys call = some sys') fun sys call =>
        call.Complete writer btc sys) ⟨noTables, Table.empty⟩
        [delivery [sold "a" 61 5000], delivery [sold "a" 61 5000, sold "b" 80 2000]] t ∧
      t.shown btc minute = some ⟨2, 0, 7000, 0, 7000, 5000⟩ ∧ t.Matches btc := by
  obtain ⟨t, ht, hshown⟩ := Option.map_eq_some_iff.1
    (show ([delivery [sold "a" 61 5000], delivery [sold "a" 61 5000, sold "b" 80 2000]].foldlM
        (fun (sys : System) (call : Call) =>
          if call.Complete writer btc sys then step writer btc sys call else none)
        ⟨noTables, Table.empty⟩).map (fun t => t.shown btc minute) =
      some (some ⟨2, 0, 7000, 0, 7000, 5000⟩) by decide +kernel)
  have hrun := Run.of_foldlM_restrict ht
  exact ⟨t, hrun, hshown, matches_of_run writer btc (.inl rfl) (fun _ => rfl) hrun⟩

/-- **The second of two calls that split a minute replaces its row**: the row
    shows one of the two events. -/
theorem second_batch_replaces :
    ∃ t, Run (fun sys call sys' => step writer btc sys call = some sys') ⟨noTables, Table.empty⟩
        [delivery [sold "a" 61 5000], delivery [sold "b" 80 2000]] t ∧
      t.shown btc minute = some ⟨1, 0, 2000, 0, 2000, 2000⟩ ∧
      t.due btc minute = some ⟨2, 0, 7000, 0, 7000, 5000⟩ := by
  obtain ⟨t, ht, hrows⟩ := Option.map_eq_some_iff.1
    (show ([delivery [sold "a" 61 5000], delivery [sold "b" 80 2000]].foldlM (step writer btc)
        ⟨noTables, Table.empty⟩).map (fun t => (t.shown btc minute, t.due btc minute)) =
      some (some ⟨1, 0, 2000, 0, 2000, 2000⟩, some ⟨2, 0, 7000, 0, 7000, 5000⟩) by decide +kernel)
  exact ⟨t, Run.of_foldlM ht, congrArg Prod.fst hrows, congrArg Prod.snd hrows⟩

end Examples

end System

end Aggregator.Collectors.Core
