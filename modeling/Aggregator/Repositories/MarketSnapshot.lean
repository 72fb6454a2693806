/-
  The table of market snapshots (`internal/repositories/market_snapshot.go`).

  The jobs for tickers, mark prices and funding rates all write it.  A call is
  one transaction, and a row replaces all of the row that has its symbol,
  exchange and time, also by null.

  `history_holds`: after any history of calls the table has, for each symbol,
  exchange and time, the row that was written last.
-/
import Aggregator.Lib.Checks
import Aggregator.Lib.Latest
import Aggregator.Normalizers.Market

namespace Aggregator.Repositories

open Aggregator.Go Aggregator.Normalizers

/-- The columns of the unique index of `derivative_market_snapshots`. -/
structure SnapshotKey where
  symbolID : ℤ
  exchange : String
  snapshotTime : ℤ
deriving DecidableEq, Repr

def snapshotKey (s : NormalizedMarketSnapshot) : SnapshotKey :=
  ⟨s.symbolID, s.exchange, s.snapshotTime⟩

abbrev MarketSnapshotTable := Table snapshotKey

/-- `ensureJSON`. -/
def ensureJSON (raw : Option Json) : Json := raw.getD (.obj [])

/-- The row that a snapshot is written as. -/
def snapshotRow (s : NormalizedMarketSnapshot) : NormalizedMarketSnapshot :=
  { s with rawData := some (ensureJSON s.rawData).jsonb }

/-- `DO UPDATE` of a snapshot: every column outside the index. -/
def overSnapshot (new old : NormalizedMarketSnapshot) : NormalizedMarketSnapshot :=
  { new with
    symbolID := old.symbolID
    exchange := old.exchange
    snapshotTime := old.snapshotTime }

theorem overSnapshot_key (new old : NormalizedMarketSnapshot) :
    snapshotKey (overSnapshot new old) = snapshotKey old := rfl

/-- The row that replaces a row with its own key is the new one. -/
theorem overSnapshot_eq {new old : NormalizedMarketSnapshot}
    (h : snapshotKey old = snapshotKey new) : overSnapshot new old = new := by
  simp only [snapshotKey, SnapshotKey.mk.injEq] at h
  obtain ⟨hid, hex, ht⟩ := h
  simp only [overSnapshot, hid, hex, ht]

/-- One snapshot, with the `CHECK` of the table. -/
def upsertMarketSnapshot (acc : ℕ × MarketSnapshotTable) (snapshot : NormalizedMarketSnapshot) :
    Except String (ℕ × MarketSnapshotTable) := do
  validateMarketSnapshot snapshot
  if snapshot.exchange ≠ toLower snapshot.exchange then
    .error "upsert market snapshot: pq: new row violates check constraint"
  else
    let row := snapshotRow snapshot
    return (acc.1 + 1, acc.2.upsert row (overSnapshot row) (overSnapshot_key row))

/-- `MarketSnapshotRepository.Upsert`. -/
def upsertMarketSnapshots (snapshots : List NormalizedMarketSnapshot) (t : MarketSnapshotTable) :
    Except String (ℕ × MarketSnapshotTable) :=
  snapshots.foldlM upsertMarketSnapshot (0, t)

/-! ## Histories -/

/-- The table after a call: a call that fails is rolled back. -/
def afterUpsert (t : MarketSnapshotTable) (snapshots : List NormalizedMarketSnapshot) :
    MarketSnapshotTable :=
  match upsertMarketSnapshots snapshots t with
  | .ok (_, t') => t'
  | .error _ => t

/-- The table after some calls, starting with the empty one. -/
def afterUpserts (history : List (List NormalizedMarketSnapshot)) : MarketSnapshotTable :=
  history.foldl afterUpsert Table.empty

/-- The snapshot passes the checks of the repository and of the table. -/
def accepted (s : NormalizedMarketSnapshot) : Bool :=
  (validateMarketSnapshot s).isOk && s.exchange = toLower s.exchange

/-- The rows that some calls have written, the last one first.  A call with a
    snapshot that is not accepted writes none. -/
def written (history : List (List NormalizedMarketSnapshot)) : List NormalizedMarketSnapshot :=
  ((history.filter fun batch => batch.all accepted).flatten.map snapshotRow).reverse

theorem upsertMarketSnapshot_of_accepted {s : NormalizedMarketSnapshot} (hs : accepted s)
    (acc : ℕ × MarketSnapshotTable) :
    upsertMarketSnapshot acc s = .ok (acc.1 + 1, acc.2.upsert (snapshotRow s)
      (overSnapshot (snapshotRow s)) (overSnapshot_key (snapshotRow s))) := by
  obtain ⟨hv, hex⟩ := Bool.and_eq_true_iff.1 hs
  cases hvalid : validateMarketSnapshot s with
  | error e => rw [hvalid] at hv; cases hv
  | ok u =>
    rw [upsertMarketSnapshot, hvalid]
    simp only [ne_eq, ← of_decide_eq_true hex, not_true_eq_false, ↓reduceIte]
    rfl

theorem accepted_of_upsertMarketSnapshot {s : NormalizedMarketSnapshot}
    {acc r : ℕ × MarketSnapshotTable} (h : upsertMarketSnapshot acc s = .ok r) : accepted s := by
  obtain ⟨⟨⟩, hv, h⟩ := bind_eq_ok h
  split at h
  · cases h
  · rename_i hex
    rw [accepted, hv, decide_eq_true (not_not.1 hex)]
    rfl

/-- A call with accepted snapshots writes them, one after the other. -/
theorem upsertMarketSnapshots_holds {snapshots : List NormalizedMarketSnapshot}
    (hs : snapshots.all accepted) (acc : ℕ × MarketSnapshotTable)
    {l : List NormalizedMarketSnapshot} (hl : acc.2.Holds l) :
    ∃ r, snapshots.foldlM upsertMarketSnapshot acc = .ok r ∧
      r.2.Holds ((snapshots.map snapshotRow).reverse ++ l) := by
  induction snapshots generalizing acc l with
  | nil => exact ⟨acc, rfl, hl⟩
  | cons s snapshots ih =>
    obtain ⟨hone, hrest⟩ := Bool.and_eq_true_iff.1 hs
    have hnext := hl.upsert (overSnapshot_key (snapshotRow s)) fun _ h => overSnapshot_eq h
    obtain ⟨r, hr, hholds⟩ :=
      ih hrest (acc.1 + 1, acc.2.upsert (snapshotRow s) (overSnapshot (snapshotRow s))
        (overSnapshot_key (snapshotRow s))) hnext
    refine ⟨r, ?_, ?_⟩
    · rw [List.foldlM_cons, upsertMarketSnapshot_of_accepted hone]
      exact hr
    · rwa [List.map_cons, List.reverse_cons, List.append_assoc, List.singleton_append]

/-- A call that succeeds had only accepted snapshots. -/
theorem accepted_of_upsertMarketSnapshots {snapshots : List NormalizedMarketSnapshot}
    {acc r : ℕ × MarketSnapshotTable} (h : snapshots.foldlM upsertMarketSnapshot acc = .ok r) :
    snapshots.all accepted := by
  induction snapshots generalizing acc with
  | nil => rfl
  | cons s snapshots ih =>
    rw [List.foldlM_cons] at h
    obtain ⟨next, hone, h⟩ := bind_eq_ok h
    rw [List.all_cons, accepted_of_upsertMarketSnapshot hone, ih h]
    rfl

/-- One call of a history. -/
theorem afterUpsert_holds {t : MarketSnapshotTable} {l : List NormalizedMarketSnapshot}
    (hl : t.Holds l) (batch : List NormalizedMarketSnapshot) :
    (afterUpsert t batch).Holds
      (if batch.all accepted then (batch.map snapshotRow).reverse ++ l else l) := by
  unfold afterUpsert upsertMarketSnapshots
  by_cases hb : batch.all accepted
  · obtain ⟨r, hr, hholds⟩ := upsertMarketSnapshots_holds hb (0, t) hl
    rw [hr, if_pos hb]
    exact hholds
  · rw [if_neg hb]
    cases h : batch.foldlM upsertMarketSnapshot (0, t) with
    | error e => exact hl
    | ok r => exact absurd (accepted_of_upsertMarketSnapshots h) hb

theorem afterUpserts_append (history : List (List NormalizedMarketSnapshot))
    (batch : List NormalizedMarketSnapshot) :
    afterUpserts (history ++ [batch]) = afterUpsert (afterUpserts history) batch :=
  List.foldl_append

theorem written_append (history : List (List NormalizedMarketSnapshot))
    (batch : List NormalizedMarketSnapshot) :
    written (history ++ [batch]) =
      if batch.all accepted then (batch.map snapshotRow).reverse ++ written history
      else written history := by
  rw [written, List.filter_append]
  by_cases hb : batch.all accepted <;> simp [hb, written]

/-- **The table after a history.** -/
theorem history_holds (history : List (List NormalizedMarketSnapshot)) :
    (afterUpserts history).Holds (written history) := by
  -- calls are added at the end of a history, so the induction is on it reversed
  induction history using List.reverseRecOn with
  | nil => exact Table.Holds.nil
  | append_singleton history batch ih =>
    rw [afterUpserts_append, written_append]
    exact afterUpsert_holds ih batch

/-- The rows written are those of accepted snapshots. -/
theorem exists_of_mem_written {history : List (List NormalizedMarketSnapshot)}
    {r : NormalizedMarketSnapshot} (h : r ∈ written history) :
    ∃ s, accepted s ∧ snapshotRow s = r := by
  rw [written, List.mem_reverse, List.mem_map] at h
  obtain ⟨s, hs, rfl⟩ := h
  obtain ⟨batch, hbatch, hs⟩ := List.mem_flatten.1 hs
  exact ⟨s, List.all_eq_true.1 (List.mem_filter.1 hbatch).2 s hs, rfl⟩

end Aggregator.Repositories
