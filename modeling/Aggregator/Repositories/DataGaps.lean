/-
  The gaps in the stored data (`internal/repositories/data_gaps.go`), and those
  that are found between candles.

  A statement inserts one row of `data_gaps` for each gap its query finds, and
  updates the row that has the key already.  A row is its columns without
  `detected_at` and those the statements leave alone.  `text` is
  `timestamptz::text`, which depends on the time zone of the session.

  The parameter types are those of the columns the parameters are compared with
  or inserted into.

  * `Insertable.insertGaps`: the statement is executed if the keys of the gaps are
    their own; the gaps it records are those between candles that follow each
    other more than two intervals apart;
  * `klineGaps_cover_iff`: so every missing candle lies in a recorded gap exactly
    when candles that follow each other, but not at once, are that far apart: a
    single missing candle is not seen (`single_candle_missed`).
-/
import Aggregator.Go.Json
import Aggregator.Go.Sha1
import Aggregator.Lib.Checks
import Aggregator.Lib.Neighbours
import Aggregator.Lib.Table
import Aggregator.Normalizers.Market
import Aggregator.Postgres.Text

namespace Aggregator.Repositories

open Aggregator.Go Aggregator.Normalizers Aggregator.Postgres

structure DataGap where
  symbolID : ℤ
  exchange : String
  dataType : String
  period : String
  gapStart : ℤ
  gapEnd : ℤ
  expectedIntervalSeconds : ℤ
  lastObservedAt : ℤ
  metadata : Option Json

/-- A row of `data_gaps`. -/
structure GapRow where
  gapKey : String
  symbolID : ℤ
  exchange : String
  dataType : String
  period : Option String
  gapStart : ℤ
  gapEnd : ℤ
  expectedIntervalSeconds : Option ℤ
  lastObservedAt : Option ℤ
  metadata : Json

abbrev GapTable := Table GapRow.gapKey

/-- `DO UPDATE`. -/
def overGap (new old : GapRow) : GapRow :=
  { old with
    gapEnd := new.gapEnd
    expectedIntervalSeconds := new.expectedIntervalSeconds
    lastObservedAt := new.lastObservedAt
    metadata := new.metadata }

theorem overGap_gapKey (new old : GapRow) : (overGap new old).gapKey = old.gapKey := rfl

/-- The `CHECK` constraints of `data_gaps`. -/
def gapConstraints (row : GapRow) : Bool :=
  row.exchange = toLower row.exchange && row.gapStart ≤ row.gapEnd

/-- The values of type `integer`. -/
def int4 (n : ℤ) : Bool := -2147483648 ≤ n && n ≤ 2147483647

/-- The statement the methods share; a row is checked before it is inserted, and
    as the one it replaces. -/
def insertGaps (rows : List GapRow) (gaps : GapTable) : Except String GapTable :=
  if !rows.all fun row => gapConstraints row &&
      (gaps.find row.gapKey).all fun old => gapConstraints (overGap row old) then
    .error "pq: new row for relation data_gaps violates check constraint"
  else if ¬(rows.map GapRow.gapKey).Nodup then
    .error "pq: ON CONFLICT DO UPDATE command cannot affect row a second time"
  else .ok (gaps.upsertAll rows overGap overGap_gapKey)

theorem insertGaps_of_checks {rows : List GapRow} {gaps : GapTable}
    (hnodup : (rows.map GapRow.gapKey).Nodup) (hnew : ∀ row ∈ rows, gapConstraints row = true)
    (hold : ∀ row ∈ rows, ∀ old ∈ gaps, old.gapKey = row.gapKey →
      gapConstraints (overGap row old) = true) :
    insertGaps rows gaps = .ok (gaps.upsertAll rows overGap overGap_gapKey) := by
  have hchecks : (rows.all fun row => gapConstraints row &&
      (gaps.find row.gapKey).all fun old => gapConstraints (overGap row old)) = true := by
    rw [List.all_eq_true]
    intro row hrow
    rw [Bool.and_eq_true, Option.all_eq_true]
    refine ⟨hnew row hrow, fun old hfound => ?_⟩
    obtain ⟨hmem, hkey⟩ := Table.find_eq_some.1 hfound
    exact hold row hrow old hmem hkey
  rw [insertGaps, if_neg (by simp [hchecks]), if_neg (not_not_intro hnodup)]

theorem insertGaps_eq_ok {rows : List GapRow} {gaps gaps' : GapTable}
    (h : insertGaps rows gaps = .ok gaps') :
    (rows.map GapRow.gapKey).Nodup ∧ gaps' = gaps.upsertAll rows overGap overGap_gapKey := by
  unfold insertGaps at h
  split_ifs at h with hchecks hnodup
  · exact ⟨hnodup, (Except.ok.inj h).symm⟩

def dataGapKey (gap : DataGap) : String :=
  let seed := "|".intercalate [toString gap.symbolID, gap.exchange, gap.dataType, gap.period,
    formatRFC3339 gap.gapStart, formatRFC3339 gap.gapEnd]
  (Sha1.sum seed.toUTF8.toList).hex

/-- `Upsert`. -/
def upsertGap (gap : DataGap) (gaps : GapTable) : Except String GapTable :=
  if !int4 gap.expectedIntervalSeconds then
    .error "upsert data gap: pq: value out of range for type integer"
  else
    let row : GapRow :=
      { gapKey := dataGapKey gap
        symbolID := gap.symbolID
        exchange := gap.exchange
        dataType := gap.dataType
        period := if gap.period = "" then none else some gap.period
        gapStart := gap.gapStart
        gapEnd := gap.gapEnd
        expectedIntervalSeconds :=
          if gap.expectedIntervalSeconds = 0 then none else some gap.expectedIntervalSeconds
        lastObservedAt := if isZero gap.lastObservedAt then none else some gap.lastObservedAt
        metadata := gap.metadata.getD (.obj []) }
    (insertGaps [row] gaps).mapError ("upsert data gap: " ++ ·)

/-- `Upsert` records the end of the gap under its key, and touches no other row. -/
theorem upsertGap_records {gap : DataGap} {gaps gaps' : GapTable}
    (h : upsertGap gap gaps = .ok gaps') :
    (∃ row, gaps'.find (dataGapKey gap) = some row ∧ row.gapEnd = gap.gapEnd) ∧
      ∀ key ≠ dataGapKey gap, gaps'.find key = gaps.find key := by
  unfold upsertGap at h
  split at h
  · cases h
  · obtain ⟨hnodup, rfl⟩ := insertGaps_eq_ok (mapError_eq_ok.1 h)
    constructor
    · rw [Table.find_upsertAll _ hnodup]
      cases gaps.find (dataGapKey gap) <;> simp [overGap]
    · intro key hkey
      rw [Table.find_upsertAll _ hnodup]
      simp [hkey.symm]

/-- `int(expectedInterval.Seconds())`. -/
def intervalSeconds (expectedInterval : ℤ) : ℤ := float64ToInt64 (seconds expectedInterval)

/-- The time of a call: a zero time stands for the clock. -/
def callTime (clock now : ℤ) : ℤ := if isZero now then clock else now

/-! ## Gaps between candles -/

/-- The columns of the unique index of `derivative_klines`. -/
structure KlineKey where
  symbolID : ℤ
  exchange : String
  interval : String
  openTime : ℤ
deriving DecidableEq, Repr

def klineKey (k : NormalizedKline) : KlineKey := ⟨k.symbolID, k.exchange, k.interval, k.openTime⟩

abbrev KlineTable := Table klineKey

/-- The candles of an interval in a window. -/
def klinesIn (klines : KlineTable) (interval : String) (first last : ℤ) : List NormalizedKline :=
  klines.rows.filter fun k => k.interval = interval && first ≤ k.openTime && k.openTime ≤ last

/-- The open times of a partition. -/
def openTimes (rows : List NormalizedKline) (symbolID : ℤ) (exchange : String) : List ℤ :=
  (rows.filter fun k => k.symbolID = symbolID && k.exchange = exchange).map (·.openTime)

section
variable (text : ℤ → String)

/-- The key of a gap; its parts are not separated. -/
def klineGapKey (interval : String) (symbolID : ℤ) (exchange : String) (gapStart gapEnd : ℤ) :
    String :=
  md5 (toString symbolID ++ exchange ++ "kline" ++ interval ++ text gapStart ++ text gapEnd)

def klineGapRow (interval : String) (expected : ℤ) (k : NormalizedKline) (previousTime : ℤ) :
    GapRow where
  gapKey := klineGapKey text interval k.symbolID k.exchange previousTime k.openTime
  symbolID := k.symbolID
  exchange := k.exchange
  dataType := "kline"
  period := some interval
  gapStart := previousTime
  gapEnd := k.openTime
  expectedIntervalSeconds := some expected
  lastObservedAt := some previousTime
  metadata := .obj [("source_symbol", .str k.sourceSymbol), ("detector", .str "kline_gap")]

/-- The row of the query for a candle.  The open times of a partition differ, so
    `LAG` gives the greatest of those before. -/
def klineGap (interval : String) (expected : ℤ) (ordered : List NormalizedKline)
    (k : NormalizedKline) : Option GapRow := do
  let previousTime ← previous (openTimes ordered k.symbolID k.exchange) k.openTime
  guard (2 * (expected * second) < k.openTime - previousTime)
  return klineGapRow text interval expected k previousTime

/-- The rows of the query. -/
def klineGaps (interval : String) (expected : ℤ) (ordered : List NormalizedKline) : List GapRow :=
  ordered.filterMap (klineGap text interval expected ordered)

/-- `InsertKlineGaps`, at the time `clock`. -/
def insertKlineGaps (clock : ℤ) (interval : String) (expectedInterval lookback now : ℤ)
    (klines : KlineTable) (gaps : GapTable) : Except String GapTable :=
  let now := callTime clock now
  let expected := intervalSeconds expectedInterval
  if !int4 expected then .error "insert kline gaps: pq: value out of range for type integer"
  else
    let ordered := klinesIn klines interval (now + wrap64 (-lookback)) now
    (insertGaps (klineGaps text interval expected ordered) gaps).mapError ("insert kline gaps: " ++ ·)

variable {text}

theorem klineGap_eq_some {interval : String} {expected : ℤ} {ordered : List NormalizedKline}
    {k : NormalizedKline} {row : GapRow} :
    klineGap text interval expected ordered k = some row ↔ ∃ previousTime,
      previous (openTimes ordered k.symbolID k.exchange) k.openTime = some previousTime ∧
      2 * (expected * second) < k.openTime - previousTime ∧
      row = klineGapRow text interval expected k previousTime := by
  simp only [klineGap, bind, Option.bind_eq_some_iff, guard]
  refine exists_congr fun p => and_congr_right fun _ => ?_
  split_ifs with hlt <;> simp [hlt, eq_comm, pure]

end

/-- A candle is stored for the series at the time. -/
def HasKline (klines : KlineTable) (interval : String) (symbolID : ℤ) (exchange : String) (t : ℤ) :
    Prop := ∃ k ∈ klines, klineKey k = ⟨symbolID, exchange, interval, t⟩

instance (klines : KlineTable) (interval : String) (symbolID : ℤ) (exchange : String) (t : ℤ) :
    Decidable (HasKline klines interval symbolID exchange t) :=
  inferInstanceAs (Decidable (∃ k ∈ klines.rows, _))

section
variable {klines : KlineTable} {interval : String} {first last symbolID : ℤ} {exchange : String}

theorem mem_openTimes {t : ℤ} :
    t ∈ openTimes (klinesIn klines interval first last) symbolID exchange ↔
      HasKline klines interval symbolID exchange t ∧ first ≤ t ∧ t ≤ last := by
  simp only [openTimes, klinesIn, List.mem_map, List.mem_filter, Bool.and_eq_true,
    decide_eq_true_eq]
  constructor
  · rintro ⟨k, ⟨⟨hk, ⟨rfl, hfirst⟩, hlast⟩, rfl, rfl⟩, rfl⟩
    exact ⟨⟨k, hk, rfl⟩, hfirst, hlast⟩
  · rintro ⟨⟨k, hk, hkey⟩, hfirst, hlast⟩
    obtain ⟨rfl, rfl, rfl, rfl⟩ := KlineKey.mk.inj hkey
    exact ⟨k, ⟨⟨hk, ⟨rfl, hfirst⟩, hlast⟩, rfl, rfl⟩, rfl⟩

end

section
variable (klines : KlineTable) (interval : String) (d first last : ℤ)

/-- Every time of the grid between two candles of the window at which there is
    none lies in one of the gaps. -/
def GapsComplete (gaps : GapRow → Prop) : Prop :=
  ∀ symbolID exchange a b t, HasKline klines interval symbolID exchange a →
    HasKline klines interval symbolID exchange b → first ≤ a → b ≤ last → a < t → t < b → d ∣ t →
    ¬HasKline klines interval symbolID exchange t →
    ∃ g, gaps g ∧ g.symbolID = symbolID ∧ g.exchange = exchange ∧ g.dataType = "kline" ∧
      g.period = some interval ∧ g.gapStart < t ∧ t < g.gapEnd

/-- None of the gaps has a candle inside. -/
def GapsEmpty (gaps : GapRow → Prop) : Prop :=
  ∀ g, gaps g → ∀ t, HasKline klines interval g.symbolID g.exchange t →
    ¬(g.gapStart < t ∧ t < g.gapEnd)

/-- Two candles of the window follow each other. -/
structure Follows (symbolID : ℤ) (exchange : String) (a b : ℤ) : Prop where
  left : HasKline klines interval symbolID exchange a
  right : HasKline klines interval symbolID exchange b
  lt : a < b
  first_le : first ≤ a
  le_last : b ≤ last
  between : ∀ t, a < t → t < b → ¬HasKline klines interval symbolID exchange t

/-- They are further apart than the query asks for. -/
structure LongGap (symbolID : ℤ) (exchange : String) (a b : ℤ) : Prop
    extends Follows klines interval first last symbolID exchange a b where
  long : 2 * (intervalSeconds d * second) < b - a

/-- Candles that follow each other with a time of the grid between them are so. -/
def HolesLong : Prop :=
  ∀ symbolID exchange a b, Follows klines interval first last symbolID exchange a b →
    a + d < b → 2 * (intervalSeconds d * second) < b - a

variable (text : ℤ → String)

/-- The statement can be executed and its keys are those of the gaps: the seconds
    are an `integer`, exchanges are lower case as the table has them, and no two
    gaps, found now or stored before, have one key. -/
structure Insertable (gaps : GapTable) : Prop where
  seconds : int4 (intervalSeconds d) = true
  lower : ∀ symbolID exchange a b, LongGap klines interval d first last symbolID exchange a b →
    exchange = toLower exchange
  keys : ∀ symbolID exchange a b symbolID' exchange' a' b',
    LongGap klines interval d first last symbolID exchange a b →
    LongGap klines interval d first last symbolID' exchange' a' b' →
    klineGapKey text interval symbolID exchange a b =
      klineGapKey text interval symbolID' exchange' a' b' →
    symbolID = symbolID' ∧ exchange = exchange' ∧ b = b'
  stored : ∀ g ∈ gaps, ∀ symbolID exchange a b,
    LongGap klines interval d first last symbolID exchange a b →
    g.gapKey = klineGapKey text interval symbolID exchange a b →
    g.symbolID = symbolID ∧ g.exchange = exchange ∧ g.dataType = "kline" ∧
      g.period = some interval ∧ g.gapStart = a

/-- The row is the gap between two candles. -/
structure IsGap (symbolID : ℤ) (exchange : String) (a b : ℤ) (g : GapRow) : Prop where
  gapKey : g.gapKey = klineGapKey text interval symbolID exchange a b
  symbolID : g.symbolID = symbolID
  exchange : g.exchange = exchange
  dataType : g.dataType = "kline"
  period : g.period = some interval
  gapStart : g.gapStart = a
  gapEnd : g.gapEnd = b

/-- The rows that a call has inserted or updated. -/
def Recorded (gaps : GapTable) (g : GapRow) : Prop :=
  g ∈ gaps ∧ ∃ row ∈ klineGaps text interval (intervalSeconds d) (klinesIn klines interval first last),
    row.gapKey = g.gapKey

variable {klines interval d first last text} {symbolID : ℤ} {exchange : String} {gaps : GapTable}

/-- The candles that `LAG` brings together are those that follow each other. -/
theorem previous_eq_some_iff_follows {a b : ℤ} :
    (b ∈ openTimes (klinesIn klines interval first last) symbolID exchange ∧
      previous (openTimes (klinesIn klines interval first last) symbolID exchange) b = some a) ↔
      Follows klines interval first last symbolID exchange a b := by
  constructor
  · rintro ⟨hb, hprevious⟩
    obtain ⟨⟨ha, hlt⟩, -⟩ := previous_eq_some.1 hprevious
    obtain ⟨hbk, -, hblast⟩ := mem_openTimes.1 hb
    obtain ⟨hak, hafirst, -⟩ := mem_openTimes.1 ha
    refine ⟨hak, hbk, hlt, hafirst, hblast, ?_⟩
    intro t hat htb ht
    refine not_between_of_previous hprevious t (mem_openTimes.2 ⟨ht, ?_, ?_⟩) ⟨hat, htb⟩
    · omega
    · omega
  · intro h
    have hlt := h.lt
    have hfirst := h.first_le
    have hlast := h.le_last
    refine ⟨mem_openTimes.2 ⟨h.right, by omega, hlast⟩, previous_eq_some.2 ⟨⟨?_, hlt⟩, ?_⟩⟩
    · exact mem_openTimes.2 ⟨h.left, hfirst, by omega⟩
    · intro c hc hcb
      by_contra hac
      exact h.between c (by omega) hcb (mem_openTimes.1 hc).1

/-- The query finds the long gaps. -/
theorem klineGap_eq_some_iff {k : NormalizedKline} (hk : k ∈ klinesIn klines interval first last)
    {row : GapRow} :
    klineGap text interval (intervalSeconds d) (klinesIn klines interval first last) k = some row ↔
      ∃ a, LongGap klines interval d first last k.symbolID k.exchange a k.openTime ∧
        row = klineGapRow text interval (intervalSeconds d) k a := by
  rw [klineGap_eq_some]
  refine exists_congr fun a => ?_
  have htime : k.openTime ∈ openTimes (klinesIn klines interval first last) k.symbolID k.exchange :=
    List.mem_map.2 ⟨k, List.mem_filter.2 ⟨hk, by simp⟩, rfl⟩
  constructor
  · rintro ⟨hprevious, hlong, hrow⟩
    exact ⟨⟨previous_eq_some_iff_follows.1 ⟨htime, hprevious⟩, hlong⟩, hrow⟩
  · rintro ⟨hgap, hrow⟩
    exact ⟨(previous_eq_some_iff_follows.2 hgap.toFollows).2, hgap.long, hrow⟩

/-- Each row of the query is a long gap. -/
theorem longGap_of_mem {row : GapRow}
    (h : row ∈ klineGaps text interval (intervalSeconds d) (klinesIn klines interval first last)) :
    ∃ symbolID exchange a b, LongGap klines interval d first last symbolID exchange a b ∧
      IsGap interval text symbolID exchange a b row := by
  obtain ⟨k, hk, hrow⟩ := List.mem_filterMap.1 h
  obtain ⟨a, hgap, rfl⟩ := (klineGap_eq_some_iff hk).1 hrow
  exact ⟨_, _, _, _, hgap, ⟨rfl, rfl, rfl, rfl, rfl, rfl, rfl⟩⟩

/-- Each long gap is a row of the query. -/
theorem LongGap.exists_row (text : ℤ → String) {a b : ℤ}
    (h : LongGap klines interval d first last symbolID exchange a b) :
    ∃ row ∈ klineGaps text interval (intervalSeconds d) (klinesIn klines interval first last),
      IsGap interval text symbolID exchange a b row := by
  obtain ⟨k, hk, hkey⟩ := h.right
  obtain ⟨rfl, rfl, rfl, rfl⟩ := KlineKey.mk.inj hkey
  have hfirst := h.first_le
  have hlt := h.lt
  have hmem : k ∈ klinesIn klines k.interval first last := by
    refine List.mem_filter.2 ⟨hk, ?_⟩
    simp only [Bool.and_eq_true, decide_eq_true_eq]
    exact ⟨⟨trivial, by omega⟩, h.le_last⟩
  refine ⟨_, List.mem_filterMap.2 ⟨k, hmem, (klineGap_eq_some_iff hmem).2 ⟨a, h, rfl⟩⟩, ?_⟩
  exact ⟨rfl, rfl, rfl, rfl, rfl, rfl, rfl⟩

/-- Only one pair of candles that follow each other has a time between them. -/
theorem Follows.unique {a b p n t : ℤ}
    (hab : Follows klines interval first last symbolID exchange a b)
    (hpn : Follows klines interval first last symbolID exchange p n) (hat : a < t) (htb : t < b)
    (hpt : p < t) (htn : t < n) : p = a ∧ n = b := by
  have hpa := hab.between p
  have hnb := hab.between n
  have hap := hpn.between a
  have hbn := hpn.between b
  constructor
  · rcases lt_trichotomy p a with h | h | h
    · exact absurd hab.left (hap h (by omega))
    · exact h
    · exact absurd hpn.left (hpa h (by omega))
  · rcases lt_trichotomy n b with h | h | h
    · exact absurd hpn.right (hnb (by omega) h)
    · exact h
    · exact absurd hab.right (hbn (by omega) h)

/-! ## What a call records -/

/-- The rows of the query have different keys. -/
theorem Insertable.nodup (h : Insertable klines interval d first last text gaps) :
    ((klineGaps text interval (intervalSeconds d) (klinesIn klines interval first last)).map
      GapRow.gapKey).Nodup := by
  have hklines : (klinesIn klines interval first last).Pairwise fun k k' => klineKey k ≠ klineKey k' :=
    (List.pairwise_map.1 klines.nodup).filter _
  rw [klineGaps, List.Nodup, List.pairwise_map, List.pairwise_filterMap]
  refine hklines.imp_of_mem fun {k k'} hk hk' hne row hrow row' hrow' hkey => hne ?_
  obtain ⟨a, hgap, rfl⟩ := (klineGap_eq_some_iff hk).1 hrow
  obtain ⟨a', hgap', rfl⟩ := (klineGap_eq_some_iff hk').1 hrow'
  obtain ⟨hid, hexchange, htime⟩ := h.keys _ _ _ _ _ _ _ _ hgap hgap' hkey
  have hinterval : ∀ k ∈ klinesIn klines interval first last, k.interval = interval := by
    intro k hk
    have := (List.mem_filter.1 hk).2
    simp only [Bool.and_eq_true, decide_eq_true_eq] at this
    exact this.1.1
  rw [klineKey, klineKey, hid, hexchange, htime, hinterval k hk, hinterval k' hk']

theorem IsGap.checked {g : GapRow} {a b : ℤ} (hg : IsGap interval text symbolID exchange a b g)
    (h : Insertable klines interval d first last text gaps)
    (hgap : LongGap klines interval d first last symbolID exchange a b) : gapConstraints g = true := by
  rw [gapConstraints, hg.exchange, hg.gapStart, hg.gapEnd, Bool.and_eq_true, decide_eq_true_eq,
    decide_eq_true_eq]
  exact ⟨h.lower _ _ _ _ hgap, hgap.lt.le⟩

/-- A gap that is found again keeps its columns. -/
theorem IsGap.merge {row old : GapRow} {a b : ℤ}
    (hrow : IsGap interval text symbolID exchange a b row)
    (h : Insertable klines interval d first last text gaps)
    (hgap : LongGap klines interval d first last symbolID exchange a b) (hold : old ∈ gaps)
    (hkey : old.gapKey = row.gapKey) :
    IsGap interval text symbolID exchange a b (overGap row old) := by
  have hkey' := hkey.trans hrow.gapKey
  obtain ⟨hid, hexchange, htype, hperiod, hstart⟩ := h.stored old hold _ _ _ _ hgap hkey'
  exact ⟨hkey', hid, hexchange, htype, hperiod, hstart, hrow.gapEnd⟩

/-- **The statement is executed**, and the rows it inserts or updates are the long
    gaps. -/
theorem Insertable.insertGaps (h : Insertable klines interval d first last text gaps) :
    ∃ gaps', insertGaps (klineGaps text interval (intervalSeconds d)
        (klinesIn klines interval first last)) gaps = .ok gaps' ∧
      (∀ g, Recorded klines interval d first last text gaps' g → ∃ symbolID exchange a b,
        LongGap klines interval d first last symbolID exchange a b ∧
          IsGap interval text symbolID exchange a b g) ∧
      ∀ symbolID exchange a b, LongGap klines interval d first last symbolID exchange a b →
        ∃ g, Recorded klines interval d first last text gaps' g ∧
          IsGap interval text symbolID exchange a b g := by
  refine ⟨_, insertGaps_of_checks h.nodup (fun row hrow => ?_) fun row hrow old hold hkey => ?_,
    fun g hg => ?_, fun symbolID exchange a b hgap => ?_⟩
  · obtain ⟨_, _, _, _, hgap, hrow⟩ := longGap_of_mem hrow
    exact hrow.checked h hgap
  · obtain ⟨_, _, _, _, hgap, hrow⟩ := longGap_of_mem hrow
    exact (hrow.merge h hgap hold hkey).checked h hgap
  · obtain ⟨hmem, row, hrow, hkey⟩ := hg
    rcases (Table.mem_upsertAll h.nodup).1 hmem with
      ⟨-, hne⟩ | ⟨r, hr, ⟨-, rfl⟩ | ⟨old, hold, hk, rfl⟩⟩
    · exact absurd hkey (hne row hrow)
    · exact longGap_of_mem hr
    · obtain ⟨_, _, _, _, hgap, hr⟩ := longGap_of_mem hr
      exact ⟨_, _, _, _, hgap, hr.merge h hgap hold hk⟩
  · obtain ⟨row, hrow, hisGap⟩ := hgap.exists_row text
    rcases Table.mem_upsertAll_of_insert h.nodup hrow with hadded | ⟨old, hold, hk, hmerged⟩
    · exact ⟨row, ⟨hadded, row, hrow, rfl⟩, hisGap⟩
    · exact ⟨_, ⟨hmerged, row, hrow, hk.symm⟩, hisGap.merge h hgap hold hk⟩

end

section
variable {klines : KlineTable} {interval : String} {d first last : ℤ} {recorded : GapRow → Prop}

/-- Gaps that are the long ones have no candle inside, and leave out no missing one
    exactly if all holes are long. -/
theorem gaps_cover_iff {text : ℤ → String} (hd : 0 < d)
    (hgrid : ∀ symbolID exchange t, HasKline klines interval symbolID exchange t → d ∣ t)
    (hsound : ∀ g, recorded g → ∃ symbolID exchange a b,
      LongGap klines interval d first last symbolID exchange a b ∧
        IsGap interval text symbolID exchange a b g)
    (hcomplete : ∀ symbolID exchange a b,
      LongGap klines interval d first last symbolID exchange a b →
        ∃ g, recorded g ∧ IsGap interval text symbolID exchange a b g) :
    GapsComplete klines interval d first last recorded ∧ GapsEmpty klines interval recorded ↔
      HolesLong klines interval d first last := by
  have hempty : GapsEmpty klines interval recorded := by
    intro g hg t ht hinside
    obtain ⟨symbolID, exchange, a, b, hgap, hisGap⟩ := hsound g hg
    rw [hisGap.symbolID, hisGap.exchange] at ht
    rw [hisGap.gapStart, hisGap.gapEnd] at hinside
    exact hgap.between t hinside.1 hinside.2 ht
  rw [and_iff_left hempty]
  constructor
  · intro h symbolID exchange a b hab hlt
    -- the first time of the grid after `a` is missing
    have hmissing := hab.between (a + d) (by omega) hlt
    have hdvd := dvd_add (hgrid _ _ _ hab.left) (dvd_refl d)
    obtain ⟨g, hg, hid, hexchange, -, -, hstart, hend⟩ := h symbolID exchange a b (a + d)
      hab.left hab.right hab.first_le hab.le_last (by omega) hlt hdvd hmissing
    obtain ⟨symbolID', exchange', p, n, hgap, hisGap⟩ := hsound g hg
    obtain rfl := hid.symm.trans hisGap.symbolID
    obtain rfl := hexchange.symm.trans hisGap.exchange
    rw [hisGap.gapStart] at hstart
    rw [hisGap.gapEnd] at hend
    obtain ⟨rfl, rfl⟩ := hab.unique hgap.toFollows (by omega) hlt hstart hend
    exact hgap.long
  · intro hlong symbolID exchange a b t ha hb hfirst hlast hat htb hdvd ht
    have htimes : ∀ c, HasKline klines interval symbolID exchange c → a ≤ c → c ≤ b →
        c ∈ openTimes (klinesIn klines interval first last) symbolID exchange :=
      fun c hc hac hcb => mem_openTimes.2 ⟨hc, by omega, by omega⟩
    obtain ⟨p, n, hn, hprevious, hpt, htn⟩ := exists_previous_of_between
      (htimes a ha le_rfl (by omega)) (htimes b hb (by omega) le_rfl) hat htb
      fun hmem => ht (mem_openTimes.1 hmem).1
    have hfollows := previous_eq_some_iff_follows.1 ⟨hn, hprevious⟩
    have hstep : p + d ≤ t := by
      have := Int.le_of_dvd (by omega) (dvd_sub hdvd (hgrid _ _ _ hfollows.left))
      omega
    obtain ⟨g, hg, hisGap⟩ := hcomplete _ _ _ _
      ⟨hfollows, hlong _ _ _ _ hfollows (by omega)⟩
    exact ⟨g, hg, hisGap.symbolID, hisGap.exchange, hisGap.dataType, hisGap.period,
      hisGap.gapStart ▸ hpt, hisGap.gapEnd ▸ htn⟩

end

/-- **Whatever is stored, a call is executed if the keys of its gaps are their
    own**; then every missing candle lies in a gap that it records, and none of
    them has a candle inside, exactly if all holes are longer than two intervals. -/
theorem klineGaps_cover_iff {text : ℤ → String} {clock d lookback now : ℤ} {interval : String}
    {klines : KlineTable} {gaps : GapTable} (hd : 0 < d)
    (hgrid : ∀ symbolID exchange t, HasKline klines interval symbolID exchange t → d ∣ t)
    (h : Insertable klines interval d (callTime clock now + wrap64 (-lookback)) (callTime clock now)
      text gaps) :
    ∃ gaps', insertKlineGaps text clock interval d lookback now klines gaps = .ok gaps' ∧
      (GapsComplete klines interval d (callTime clock now + wrap64 (-lookback)) (callTime clock now)
          (Recorded klines interval d (callTime clock now + wrap64 (-lookback)) (callTime clock now)
            text gaps') ∧
        GapsEmpty klines interval
          (Recorded klines interval d (callTime clock now + wrap64 (-lookback)) (callTime clock now)
            text gaps') ↔
      HolesLong klines interval d (callTime clock now + wrap64 (-lookback)) (callTime clock now)) := by
  obtain ⟨gaps', hinsert, hsound, hcomplete⟩ := h.insertGaps
  refine ⟨gaps', ?_, gaps_cover_iff hd hgrid hsound hcomplete⟩
  simp only [insertKlineGaps, h.seconds, Bool.not_true, Bool.false_eq_true, if_false]
  exact mapError_eq_ok.2 hinsert

/-! ### One candle is missing -/

/-- The one-minute candle that opens some minutes after the start of 2026. -/
def minuteKline (minutes : ℤ) : NormalizedKline where
  symbolID := 1
  exchange := "binance"
  sourceSymbol := "BTCUSDT"
  interval := "1m"
  openTime := dayOfDate ⟨2026, 1, 1⟩ * day + minutes * minute
  closeTime := dayOfDate ⟨2026, 1, 1⟩ * day + (minutes + 1) * minute
  openPrice := 100
  highPrice := 101
  lowPrice := 99
  closePrice := 100
  volume := none
  quoteVolume := none
  tradeCount := none
  takerBuyVolume := none
  takerBuyQuoteVolume := none
  isClosed := true

/-- The candles of two minutes. -/
def twoKlines (m n : ℤ) (h : m ≠ n) : KlineTable :=
  ⟨[minuteKline m, minuteKline n], by simp [klineKey, minuteKline, minute, second, h]⟩

theorem hasKline_twoKlines {m n : ℤ} {h : m ≠ n} {symbolID t : ℤ} {exchange : String}
    (ht : HasKline (twoKlines m n h) "1m" symbolID exchange t) :
    t = (minuteKline m).openTime ∨ t = (minuteKline n).openTime := by
  obtain ⟨k, hk, hkey⟩ := ht
  obtain rfl := congrArg KlineKey.openTime hkey
  rcases List.mem_cons.1 hk with rfl | hk
  · exact .inl rfl
  · exact .inr (congrArg NormalizedKline.openTime (List.mem_singleton.1 hk))

theorem minute_dvd_openTime (m : ℤ) : minute ∣ (minuteKline m).openTime :=
  dvd_add (Dvd.dvd.mul_left (by decide) _) (dvd_mul_left _ _)

theorem grid_twoKlines {m n : ℤ} (h : m ≠ n) (symbolID : ℤ) (exchange : String) (t : ℤ)
    (ht : HasKline (twoKlines m n h) "1m" symbolID exchange t) : minute ∣ t := by
  rcases hasKline_twoKlines ht with rfl | rfl
  · exact minute_dvd_openTime m
  · exact minute_dvd_openTime n

/-- The detector looks at the last hour, at minute 5. -/
def detect (klines : KlineTable) (gaps : GapTable) : Except String GapTable :=
  insertKlineGaps timestamptzText 0 "1m" minute hour (minuteKline 5).openTime klines gaps

/-- The rows it has inserted or updated. -/
def Detected (klines : KlineTable) (gaps : GapTable) : GapRow → Prop :=
  Recorded klines "1m" minute (minuteKline (-55)).openTime (minuteKline 5).openTime timestamptzText gaps

theorem longGap_twoKlines {m n : ℤ} {h : m ≠ n} (hmn : m < n) {first last symbolID a b : ℤ}
    {exchange : String} (hgap : LongGap (twoKlines m n h) "1m" minute first last symbolID exchange a b) :
    symbolID = 1 ∧ exchange = "binance" ∧ a = (minuteKline m).openTime ∧
      b = (minuteKline n).openTime := by
  have hlt := hgap.lt
  have hopen : (minuteKline m).openTime < (minuteKline n).openTime := by
    simp only [minuteKline, minute, second]
    omega
  obtain ⟨k, hk, hkey⟩ := hgap.left
  have hseries : symbolID = 1 ∧ exchange = "binance" := by
    obtain ⟨rfl, rfl, -, -⟩ := KlineKey.mk.inj hkey
    rcases List.mem_cons.1 hk with rfl | hk
    · exact ⟨rfl, rfl⟩
    · obtain rfl := List.mem_singleton.1 hk
      exact ⟨rfl, rfl⟩
  refine ⟨hseries.1, hseries.2, ?_⟩
  rcases hasKline_twoKlines hgap.left with rfl | rfl <;>
    rcases hasKline_twoKlines hgap.right with rfl | rfl
  · omega
  · exact ⟨rfl, rfl⟩
  · omega
  · omega

/-- The gap of two missing candles, as an earlier call has recorded it. -/
def knownGap : GapRow :=
  klineGapRow timestamptzText "1m" 60 (minuteKline 3) (minuteKline 0).openTime

theorem insertable_knownGap :
    Insertable (twoKlines 0 3 (by decide)) "1m" minute (minuteKline (-55)).openTime
      (minuteKline 5).openTime timestamptzText ⟨[knownGap], List.nodup_singleton _⟩ where
  seconds := by decide +kernel
  lower symbolID exchange a b hgap := by
    obtain ⟨-, rfl, -, -⟩ := longGap_twoKlines (by decide) hgap
    decide +kernel
  keys symbolID exchange a b symbolID' exchange' a' b' hgap hgap' _ := by
    obtain ⟨rfl, rfl, -, rfl⟩ := longGap_twoKlines (by decide) hgap
    obtain ⟨rfl, rfl, -, rfl⟩ := longGap_twoKlines (by decide) hgap'
    exact ⟨rfl, rfl, rfl⟩
  stored g hg symbolID exchange a b hgap _ := by
    obtain ⟨rfl, rfl, rfl, rfl⟩ := longGap_twoKlines (by decide) hgap
    obtain rfl := List.mem_singleton.1 hg
    exact ⟨rfl, rfl, rfl, rfl, rfl⟩

/-- Two missing candles are seen, and seen again. -/
theorem klineGaps_cover_iff_two : ∃ gaps,
    detect (twoKlines 0 3 (by decide)) ⟨[knownGap], List.nodup_singleton _⟩ = .ok gaps ∧
    GapsComplete (twoKlines 0 3 (by decide)) "1m" minute (minuteKline (-55)).openTime
      (minuteKline 5).openTime (Detected (twoKlines 0 3 (by decide)) gaps) ∧
    GapsEmpty (twoKlines 0 3 (by decide)) "1m" (Detected (twoKlines 0 3 (by decide)) gaps) := by
  have hinsertable : Insertable (twoKlines 0 3 (by decide)) "1m" minute
      (callTime 0 (minuteKline 5).openTime + wrap64 (-hour)) (callTime 0 (minuteKline 5).openTime)
      timestamptzText ⟨[knownGap], List.nodup_singleton _⟩ := insertable_knownGap
  obtain ⟨gaps, hgaps, hiff⟩ := klineGaps_cover_iff (by decide) (grid_twoKlines _) hinsertable
  refine ⟨gaps, hgaps, hiff.2 ?_⟩
  intro symbolID exchange a b hab hlt
  have hthreshold : 2 * (intervalSeconds minute * second) = 2 * minute := by decide +kernel
  have hopen : (minuteKline 3).openTime = (minuteKline 0).openTime + 3 * minute := by decide +kernel
  rw [hthreshold]
  unfold minute second at *
  rcases hasKline_twoKlines hab.left with rfl | rfl <;>
    rcases hasKline_twoKlines hab.right with rfl | rfl <;> omega

/-- One missing candle is not: no gap is recorded. -/
theorem single_candle_missed :
    (∀ symbolID exchange t, HasKline (twoKlines 0 2 (by decide)) "1m" symbolID exchange t →
      minute ∣ t) ∧
    ∃ gaps, detect (twoKlines 0 2 (by decide)) .empty = .ok gaps ∧
      ¬GapsComplete (twoKlines 0 2 (by decide)) "1m" minute (minuteKline (-55)).openTime
        (minuteKline 5).openTime (Detected (twoKlines 0 2 (by decide)) gaps) := by
  have hok : (detect (twoKlines 0 2 (by decide)) .empty).toOption.map (·.rows.length) = some 0 := by
    decide +kernel
  obtain ⟨gaps, hgaps, hlength⟩ := Option.map_eq_some_iff.1 hok
  refine ⟨grid_twoKlines _, gaps, toOption_eq_some.1 hgaps, ?_⟩
  intro h
  obtain ⟨g, ⟨hg, -⟩, -⟩ := h 1 "binance" (minuteKline 0).openTime (minuteKline 2).openTime
    (minuteKline 1).openTime (by decide +kernel) (by decide +kernel) (by decide +kernel)
    (by decide +kernel) (by decide +kernel) (by decide +kernel) (minute_dvd_openTime 1)
    (by decide +kernel)
  change g ∈ gaps.rows at hg
  rw [List.length_eq_zero_iff.1 hlength] at hg
  exact absurd hg List.not_mem_nil

end Aggregator.Repositories
