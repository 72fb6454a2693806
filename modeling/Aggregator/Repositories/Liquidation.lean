/-
  The liquidation tables (`internal/repositories/advanced.go`:
  `UpsertLiquidationEvents`, `UpsertLiquidationAggregates`).

  Each call is one transaction: it writes all rows or none.  The `CHECK`
  constraints of the two tables are part of the model.
-/
import Aggregator.Lib.Checks
import Aggregator.Lib.Table
import Aggregator.Normalizers.Validation

namespace Aggregator.Repositories

open Aggregator.Go Aggregator.Normalizers

/-- The columns of the unique index of `liquidation_aggregates`. -/
structure BucketKey where
  symbolID : ℤ
  exchange : String
  period : String
  bucketTime : ℤ
deriving DecidableEq, Repr

def bucketKey (a : NormalizedLiquidationAggregate) : BucketKey :=
  ⟨a.symbolID, a.exchange, a.period, a.bucketTime⟩

structure LiquidationDB where
  events : Table NormalizedLiquidationEvent.eventKey
  aggregates : Table bucketKey

def liquidationUSD (item : NormalizedLiquidationEvent) : ℚ :=
  match item.usdValue, item.notional, item.price, item.quantity with
  | some usd, _, _, _ => usd
  | none, some notional, _, _ => notional
  | none, none, some price, some quantity => price * quantity
  | _, _, _, _ => 0

/-- The `CHECK` constraints of `liquidation_events`. -/
def eventConstraints (item : NormalizedLiquidationEvent) : Bool :=
  item.exchange = toLower item.exchange &&
    item.side ∈ ["buy", "sell", "long", "short", "unknown"]

/-- `DO UPDATE` of an event. -/
def overEvent (new old : NormalizedLiquidationEvent) : NormalizedLiquidationEvent :=
  { old with
    price := new.price
    quantity := new.quantity
    notional := new.notional
    usdValue := new.usdValue }

theorem overEvent_eventKey (new old : NormalizedLiquidationEvent) :
    (overEvent new old).eventKey = old.eventKey := rfl

/-- One event; small ones are skipped. -/
def upsertLiquidationEvent (minUSD : ℚ) (acc : ℕ × LiquidationDB)
    (item : NormalizedLiquidationEvent) : Except String (ℕ × LiquidationDB) := do
  validateLiquidationEvent item
  let usdValue := liquidationUSD item
  if usdValue < minUSD then return acc
  else if !eventConstraints item then
    .error "upsert liquidation event: pq: new row violates check constraint"
  else
    let row := { item with usdValue := some usdValue }
    return (acc.1 + 1,
      { acc.2 with events := acc.2.events.upsert row (overEvent row) (overEvent_eventKey row) })

def upsertLiquidationEvents (minUSD : ℚ) (items : List NormalizedLiquidationEvent)
    (db : LiquidationDB) : Except String (ℕ × LiquidationDB) :=
  items.foldlM (upsertLiquidationEvent minUSD) (0, db)

def fillLiquidationUSD (item : NormalizedLiquidationAggregate) : NormalizedLiquidationAggregate :=
  let long := if item.longLiquidationUSD = 0 then item.longLiquidationNotional
    else item.longLiquidationUSD
  let short := if item.shortLiquidationUSD = 0 then item.shortLiquidationNotional
    else item.shortLiquidationUSD
  { item with
    longLiquidationUSD := long
    shortLiquidationUSD := short
    totalLiquidationUSD := if item.totalLiquidationUSD = 0 then long + short
      else item.totalLiquidationUSD
    totalLiquidationNotional := if item.totalLiquidationNotional = 0 then
      item.longLiquidationNotional + item.shortLiquidationNotional
      else item.totalLiquidationNotional }

/-- `DO UPDATE` of an aggregate: every column outside the index. -/
def overAggregate (new old : NormalizedLiquidationAggregate) : NormalizedLiquidationAggregate :=
  { new with
    symbolID := old.symbolID
    exchange := old.exchange
    period := old.period
    bucketTime := old.bucketTime }

theorem overAggregate_key (new old : NormalizedLiquidationAggregate) :
    bucketKey (overAggregate new old) = bucketKey old := rfl

def upsertLiquidationAggregate (acc : ℕ × LiquidationDB) (item : NormalizedLiquidationAggregate) :
    Except String (ℕ × LiquidationDB) := do
  validateLiquidationAggregate item
  let item := fillLiquidationUSD item
  if item.exchange ≠ toLower item.exchange then
    .error "upsert liquidation aggregate: pq: new row violates check constraint"
  else
    return (acc.1 + 1, { acc.2 with
      aggregates := acc.2.aggregates.upsert item (overAggregate item) (overAggregate_key item) })

def upsertLiquidationAggregates (items : List NormalizedLiquidationAggregate)
    (db : LiquidationDB) : Except String (ℕ × LiquidationDB) :=
  items.foldlM upsertLiquidationAggregate (0, db)

/-! ## What a call writes -/

theorem liquidationUSD_nonneg {item : NormalizedLiquidationEvent}
    (h : validateLiquidationEvent item = .ok ()) : 0 ≤ liquidationUSD item := by
  obtain ⟨-, -, -, -, hprice, hquantity, hnotional, husd⟩ := validateLiquidationEvent_iff.1 h
  unfold liquidationUSD
  split
  · exact husd _ ‹_›
  · exact hnotional _ ‹_›
  · exact mul_nonneg (hprice _ ‹_›) (hquantity _ ‹_›)
  · exact le_refl 0

/-- The row of an event. -/
def eventRow (item : NormalizedLiquidationEvent) : NormalizedLiquidationEvent :=
  { item with usdValue := some (liquidationUSD item) }

/-- The statement for one event, its row satisfying the constraints. -/
def storeEvent (events : Table NormalizedLiquidationEvent.eventKey)
    (item : NormalizedLiquidationEvent) : Table NormalizedLiquidationEvent.eventKey :=
  events.upsert (eventRow item) (overEvent (eventRow item)) (overEvent_eventKey (eventRow item))

/-- A row that is there keeps its source, time and side. -/
theorem find_storeEvent (events : Table NormalizedLiquidationEvent.eventKey)
    (item : NormalizedLiquidationEvent) (k : String) :
    (storeEvent events item).find k = if item.eventKey = k then
      some ((events.find k).elim (eventRow item) (overEvent (eventRow item)))
      else events.find k :=
  Table.find_upsert _ _ _ _ _

/-- The events that are not skipped. -/
def large (minUSD : ℚ) (items : List NormalizedLiquidationEvent) :
    List NormalizedLiquidationEvent :=
  items.filter fun item => minUSD ≤ liquidationUSD item

theorem large_zero {items : List NormalizedLiquidationEvent}
    (h : ∀ item ∈ items, validateLiquidationEvent item = .ok ()) : large 0 items = items := by
  refine List.filter_eq_self.2 fun item hitem => ?_
  exact decide_eq_true (liquidationUSD_nonneg (h item hitem))

/-- Events that pass the check and satisfy the constraints are stored one after
    another. -/
theorem upsertLiquidationEvents_eq {minUSD : ℚ} {items : List NormalizedLiquidationEvent}
    (h : ∀ item ∈ items, validateLiquidationEvent item = .ok () ∧ eventConstraints item = true)
    (db : LiquidationDB) :
    upsertLiquidationEvents minUSD items db = .ok ((large minUSD items).length,
      { db with events := (large minUSD items).foldl storeEvent db.events }) := by
  have hfold : ∀ acc : ℕ × LiquidationDB, items.foldlM (upsertLiquidationEvent minUSD) acc =
      .ok (acc.1 + (large minUSD items).length,
        { acc.2 with events := (large minUSD items).foldl storeEvent acc.2.events }) := by
    induction items with
    | nil => exact fun acc => rfl
    | cons item items ih =>
      intro acc
      obtain ⟨hvalid, hconstraints⟩ := h item List.mem_cons_self
      have hrest := ih fun item hitem => h item (List.mem_cons_of_mem _ hitem)
      rw [List.foldlM_cons, upsertLiquidationEvent, hvalid]
      by_cases hsmall : liquidationUSD item < minUSD
      · have hlarge : large minUSD (item :: items) = large minUSD items :=
          List.filter_cons_of_neg (by simpa using hsmall)
        simp only [hsmall, ↓reduceIte, hlarge]
        exact hrest acc
      · have hlarge : large minUSD (item :: items) = item :: large minUSD items :=
          List.filter_cons_of_pos (by simpa using hsmall)
        simp only [hsmall, hconstraints, Bool.not_true, Bool.false_eq_true, ↓reduceIte, hlarge,
          List.length_cons, List.foldl_cons]
        refine (hrest _).trans ?_
        rw [Nat.add_right_comm]
        rfl
  have hdb := hfold (0, db)
  rwa [Nat.zero_add] at hdb

/-- Events leave the aggregates alone. -/
theorem upsertLiquidationEvents_aggregates {minUSD : ℚ} {items : List NormalizedLiquidationEvent}
    {db : LiquidationDB} {r : ℕ × LiquidationDB}
    (h : upsertLiquidationEvents minUSD items db = .ok r) : r.2.aggregates = db.aggregates := by
  refine foldlM_keeps (fun acc : ℕ × LiquidationDB => acc.2.aggregates) ?_ h
  intro item _ acc r h
  obtain ⟨_, -, h⟩ := bind_eq_ok h
  dsimp only at h
  split at h
  · cases h; rfl
  · split at h <;> cases h
    rfl

/-- The row that replaces a row of its own bucket is the new one. -/
theorem overAggregate_eq {new old : NormalizedLiquidationAggregate}
    (h : bucketKey old = bucketKey new) : overAggregate new old = new := by
  simp only [bucketKey, BucketKey.mk.injEq] at h
  obtain ⟨hid, hex, hp, ht⟩ := h
  simp only [overAggregate, hid, hex, hp, ht]

/-- One aggregate that passes the checks becomes the row of its bucket. -/
theorem upsertLiquidationAggregate_ok {a : NormalizedLiquidationAggregate}
    (hv : validateLiquidationAggregate a = .ok ()) (hf : fillLiquidationUSD a = a)
    (hex : a.exchange = toLower a.exchange) (acc : ℕ × LiquidationDB) :
    ∃ n aggregates, upsertLiquidationAggregate acc a =
        .ok (n, { acc.2 with aggregates := aggregates }) ∧
      ∀ k, aggregates.find k = if bucketKey a = k then some a else acc.2.aggregates.find k := by
  refine ⟨acc.1 + 1, acc.2.aggregates.upsert a (overAggregate a) (overAggregate_key a), ?_, ?_⟩
  · rw [upsertLiquidationAggregate, hv]
    simp only [hf, ne_eq, ← hex, not_true_eq_false, ↓reduceIte]
    rfl
  · intro k
    rw [Table.find_upsert]
    by_cases hk : bucketKey a = k
    · subst hk
      cases hold : acc.2.aggregates.find (bucketKey a) with
      | none => rfl
      | some old =>
        have hover := overAggregate_eq (Table.find_key hold)
        simp only [↓reduceIte, Option.elim_some, hover]
    · simp only [hk, ↓reduceIte]

/-- Aggregates of different buckets become the rows of their buckets, and no
    other row changes. -/
theorem upsertLiquidationAggregates_ok {items : List NormalizedLiquidationAggregate}
    (hv : ∀ a ∈ items, validateLiquidationAggregate a = .ok () ∧ fillLiquidationUSD a = a ∧
      a.exchange = toLower a.exchange)
    (hnd : (items.map bucketKey).Nodup) (db : LiquidationDB) :
    ∃ n aggregates, upsertLiquidationAggregates items db =
        .ok (n, { db with aggregates := aggregates }) ∧
      (∀ a ∈ items, aggregates.find (bucketKey a) = some a) ∧
      ∀ k, (∀ a ∈ items, bucketKey a ≠ k) → aggregates.find k = db.aggregates.find k := by
  have hfold : ∀ acc : ℕ × LiquidationDB, ∃ n aggregates,
      items.foldlM upsertLiquidationAggregate acc =
          .ok (n, { acc.2 with aggregates := aggregates }) ∧
        (∀ a ∈ items, aggregates.find (bucketKey a) = some a) ∧
        ∀ k, (∀ a ∈ items, bucketKey a ≠ k) →
          aggregates.find k = acc.2.aggregates.find k := by
    induction items with
    | nil => exact fun acc => ⟨acc.1, acc.2.aggregates, rfl, by simp, fun _ _ => rfl⟩
    | cons a items ih =>
      intro acc
      rw [List.map_cons, List.nodup_cons] at hnd
      obtain ⟨hva, hfa, hexa⟩ := hv a List.mem_cons_self
      obtain ⟨m, written, hone, hfind⟩ := upsertLiquidationAggregate_ok hva hfa hexa acc
      obtain ⟨n, aggregates, hrest, hin, hout⟩ :=
        ih (fun b hb => hv b (List.mem_cons_of_mem _ hb)) hnd.2
          (m, { acc.2 with aggregates := written })
      refine ⟨n, aggregates, by rw [List.foldlM_cons, hone]; exact hrest, ?_, ?_⟩
      · intro b hb
        rcases List.mem_cons.1 hb with rfl | hb
        · -- no later aggregate has this bucket
          rw [hout _ fun c hc hk => hnd.1 (List.mem_map.2 ⟨c, hc, hk⟩), hfind, if_pos rfl]
        · exact hin b hb
      · intro k hk
        rw [hout k fun b hb => hk b (List.mem_cons_of_mem _ hb), hfind,
          if_neg (hk a List.mem_cons_self)]
  exact hfold (0, db)

/-- Aggregates leave the rows of other buckets alone. -/
theorem upsertLiquidationAggregates_find {items : List NormalizedLiquidationAggregate}
    {db : LiquidationDB} {r : ℕ × LiquidationDB}
    (h : upsertLiquidationAggregates items db = .ok r) {k : BucketKey}
    (hk : ∀ a ∈ items, bucketKey a ≠ k) : r.2.aggregates.find k = db.aggregates.find k := by
  refine foldlM_keeps (fun acc : ℕ × LiquidationDB => acc.2.aggregates.find k) ?_ h
  intro item hitem acc r h
  obtain ⟨_, -, h⟩ := bind_eq_ok h
  dsimp only at h
  split at h <;> cases h
  have hkey : bucketKey (fillLiquidationUSD item) ≠ k := hk item hitem
  simp only [Table.find_upsert, hkey, ↓reduceIte]

end Aggregator.Repositories
