/-
  The pages of the klines of a symbol and of the collection jobs
  (`ListKlinesPage` of `internal/api/derivatives/series.go`, `ListJobs` of
  `admin.go`).

  The clauses of a query select its rows; `ORDER BY` leaves the order of ties to
  the database, so a page is read from any order that sorts the rows, possibly
  another one for each page.  The total is scanned with the rows, from the
  column `COUNT(*) OVER()`.

  * `klineRows_iff`, `jobRows_iff`: which rows the clauses select;
  * `readAll_eq`, `readPage_eq`: what the pages are read to be;
  * `readAll_perm_iff`: all pages together are the rows, each once, exactly if no
    tie crosses the end of a page;
  * `totals_agree_iff`: a page past the last reports no rows, so all pages agree
    on the total only if there are none.
-/
import Aggregator.Api.Queries
import Aggregator.Lib.Paging
import Aggregator.Repositories.DataGaps
import Aggregator.Scheduler.Models
import Mathlib.Data.Prod.Lex

namespace Aggregator.Api

open Aggregator.Go Aggregator.Paging Aggregator.Normalizers Aggregator.Repositories
open Aggregator.Scheduler

/-! ## The rows of a query -/

/-- A comparison of two values of a column. -/
def Cmp.holds : Cmp → Arg → Arg → Bool
  | .eq, a, b => a = b
  | .ge, .time t, .time u => u ≤ t
  | .le, .time t, .time u => t ≤ u
  | _, _, _ => false

/-- A clause on a row, given by its columns. -/
def Clause.holds (columns : String → Option Arg) (c : Clause) : Bool :=
  (columns c.column).any fun value => c.cmp.holds value c.value

/-- The columns of a kline that the clauses name. -/
def klineColumns (k : NormalizedKline) (column : String) : Option Arg :=
  if column = "symbol_id" then some (.int k.symbolID)
  else if column = "open_time" then some (.time k.openTime)
  else if column = "exchange" then some (.text k.exchange)
  else if column = "\"interval\"" then some (.text k.interval)
  else none

/-- The text of a status. -/
def statusText : JobStatus → String
  | .pending => "pending"
  | .running => "running"
  | .succeeded => "succeeded"
  | .failed => "failed"
  | .deadLetter => "dead_letter"
  | .cancelled => "cancelled"

/-- The columns of a job that the clauses name. -/
def jobColumns (j : Job) (column : String) : Option Arg :=
  if column = "scheduled_at" then some (.time j.scheduledAt)
  else if column = "exchange" then some (.text j.exchange)
  else if column = "status" then some (.text (statusText j.status))
  else none

/-- The rows that `ListKlinesPage` selects. -/
def klineRows (klines : KlineTable) (symbolID : ℤ) (o : ListOptions) : List NormalizedKline :=
  klines.rows.filter fun k => (klinesListing.clauses symbolID o).all (Clause.holds (klineColumns k))

/-- The rows that `ListJobs` selects. -/
def jobRows (jobs : Table Job.id) (o : ListOptions) : List Job :=
  jobs.rows.filter fun j => (jobsListing.clauses 0 o).all (Clause.holds (jobColumns j))

/-- A time in the order of a direction. -/
def timeKey (o : ListOptions) (t : ℤ) : ℤ := if direction o.direction = "ASC" then t else -t

/-- `ORDER BY open_time …`. -/
def klineOrder (o : ListOptions) (k : NormalizedKline) : ℤ := timeKey o k.openTime

/-- `ORDER BY scheduled_at …, priority ASC`. -/
def jobOrder (o : ListOptions) (j : Job) : ℤ ×ₗ ℤ := toLex (timeKey o j.scheduledAt, j.priority)

theorem holds_boundClause (columns : String → Option Arg) {column : String} {cmp : Cmp}
    {bound : Option ℤ} :
    (Builder.boundClause column cmp bound).all (Clause.holds columns) = true ↔
      ∀ t ∈ bound, (columns column).any (fun value => cmp.holds value (.time t)) = true := by
  cases bound <;> simp [Builder.boundClause, Clause.holds]

theorem holds_textClause (columns : String → Option Arg) {column value : String} :
    (Builder.textClause column value).all (Clause.holds columns) = true ↔
      (value ≠ "" → columns column = some (.text value)) := by
  unfold Builder.textClause
  by_cases h : value = ""
  · simp [h]
  · cases hcolumn : columns column <;> simp [h, Clause.holds, Cmp.holds, hcolumn]

/-- The clauses of a list, one by one. -/
theorem holds_clauses (columns : String → Option Arg) (l : Listing) (symbolID : ℤ)
    (o : ListOptions) :
    (l.clauses symbolID o).all (Clause.holds columns) = true ↔
      (l.series = true → columns "symbol_id" = some (.int symbolID)) ∧
      (∀ t ∈ o.startTime, (columns l.timeColumn).any (Cmp.ge.holds · (.time t)) = true) ∧
      (∀ t ∈ o.endTime, (columns l.timeColumn).any (Cmp.le.holds · (.time t)) = true) ∧
      ∀ f ∈ l.filters, f.2.value o ≠ "" → columns f.1 = some (.text (f.2.value o)) := by
  have hsymbol : (if l.series then [(⟨"symbol_id", .eq, .int symbolID⟩ : Clause)] else []).all
      (Clause.holds columns) = true ↔
      (l.series = true → columns "symbol_id" = some (.int symbolID)) := by
    cases l.series with
    | false => simp
    | true => cases hcolumn : columns "symbol_id" <;> simp [Clause.holds, Cmp.holds, hcolumn]
  simp only [Listing.clauses, List.all_append, Bool.and_eq_true, hsymbol, holds_boundClause,
    List.all_flatMap, List.all_eq_true (l := l.filters), holds_textClause, and_assoc]

theorem klineRows_iff {klines : KlineTable} {symbolID : ℤ} {o : ListOptions} {k : NormalizedKline} :
    k ∈ klineRows klines symbolID o ↔ k ∈ klines ∧ k.symbolID = symbolID ∧
      (∀ t ∈ o.startTime, t ≤ k.openTime) ∧ (∀ t ∈ o.endTime, k.openTime ≤ t) ∧
      (o.exchange ≠ "" → k.exchange = o.exchange) ∧
      k.interval = if o.interval = "" then "5m" else o.interval := by
  have hinterval : (if o.interval = "" then "5m" else o.interval) ≠ "" := by
    split_ifs with h
    · decide
    · exact h
  rw [klineRows, List.mem_filter, holds_clauses, Table.mem_rows]
  simp [klinesListing, klineColumns, Cmp.holds, Filter.value, hinterval]

theorem jobRows_iff {jobs : Table Job.id} {o : ListOptions} {j : Job} :
    j ∈ jobRows jobs o ↔ j ∈ jobs ∧
      (∀ t ∈ o.startTime, t ≤ j.scheduledAt) ∧ (∀ t ∈ o.endTime, j.scheduledAt ≤ t) ∧
      (o.exchange ≠ "" → j.exchange = o.exchange) ∧
      (o.category ≠ "" → statusText j.status = o.category) := by
  rw [jobRows, List.mem_filter, holds_clauses, Table.mem_rows]
  simp [jobsListing, jobColumns, Cmp.holds, Filter.value]

theorem nodup_klineRows (klines : KlineTable) (symbolID : ℤ) (o : ListOptions) :
    (klineRows klines symbolID o).Nodup :=
  (List.Nodup.of_map _ klines.nodup).filter _

theorem nodup_jobRows (jobs : Table Job.id) (o : ListOptions) : (jobRows jobs o).Nodup :=
  (List.Nodup.of_map _ jobs.nodup).filter _

/-! ## Pages -/

structure PagedResponse (α : Type) where
  data : List α
  pageMeta : PageMeta
deriving DecidableEq

variable {α κ : Type}

/-- A page, from the order the database has put the rows in: `LIMIT` and `OFFSET`
    cut it out, and the total is scanned with each of its rows. -/
def readPage (query : String) (o : ListOptions) (ordered : List α) :
    Except String (PagedResponse α) :=
  if o.offset < 0 then .error s!"query {query}: pq: OFFSET must not be negative"
  else
    let data := (ordered.drop o.offset.toNat).take o.limit.toNat
    .ok ⟨data, o.pageMeta (if data.isEmpty then 0 else ordered.length)⟩

/-- `ListKlinesPage`. -/
def listKlinesPage (o : ListOptions) (ordered : List NormalizedKline) :
    Except String (PagedResponse NormalizedKline) :=
  readPage "klines" o ordered

/-- `ListJobs`. -/
def listJobs (o : ListOptions) (ordered : List Job) : Except String (PagedResponse Job) :=
  readPage "jobs" o ordered

/-- The same options for another page. -/
def ListOptions.onPage (o : ListOptions) (page : ℤ) : ListOptions := { o with page }

/-- The pages from the first to the last that the first reports, each from an
    order of its own. -/
def readAll (list : ListOptions → List α → Except String (PagedResponse α)) (o : ListOptions)
    (answer : ℕ → List α) : Except String (List α) := do
  let first ← list (o.onPage 1) (answer 0)
  let pages ← (List.range first.pageMeta.totalPages.toNat).mapM fun i =>
    list (o.onPage (i + 1 : ℕ)) (answer i)
  .ok (pages.flatMap (·.data))

/-- A number of rows that `COUNT(*)` and the sums with it can count. -/
def Counted (rows : List α) : Prop := rows.length + maxLimit ≤ int64Max

/-- All pages together are the rows, each once, whatever order each page is read
    from. -/
def PagesExact [LinearOrder κ] (list : ListOptions → List α → Except String (PagedResponse α))
    (o : ListOptions) (key : α → κ) (rows : List α) : Prop :=
  ∀ answer : ℕ → List α, (∀ i, Orders key rows (answer i)) →
    ∃ all, readAll list o answer = .ok all ∧ all.Perm rows

/-- Every page, also one past the last, reports the number of rows and of pages.
    The page and its offset are in the range of `int`. -/
def TotalsAgree [LinearOrder κ] (list : ListOptions → List α → Except String (PagedResponse α))
    (o : ListOptions) (key : α → κ) (rows : List α) : Prop :=
  ∀ i : ℕ, (i : ℤ) + 1 ≤ int64Max → i * o.limit ≤ int64Max →
    ∀ ordered, Orders key rows ordered → ∃ r, list (o.onPage (i + 1 : ℕ)) ordered = .ok r ∧
      r.pageMeta.total = rows.length ∧
      r.pageMeta.totalPages = (pageCount o.limit.toNat rows : ℤ)

section Pages
variable {query : String} {o : ListOptions} (h : o.Accepted) {rows ordered : List α}

include h

theorem accepted_onPage {p : ℤ} (hp : 1 ≤ p) (hle : p ≤ int64Max) : (o.onPage p).Accepted :=
  ⟨h.limit_pos, h.limit_le, hp, hle, h.direction⟩

/-- A page whose number and offset are in the range of `int`: its rows, and the
    number of all rows unless it has none. -/
theorem readPage_eq (query : String) {i : ℕ} (hpage : (i : ℤ) + 1 ≤ int64Max)
    (hi : i * o.limit ≤ int64Max) (ordered : List α) :
    readPage query (o.onPage (i + 1 : ℕ)) ordered =
      .ok ⟨page o.limit.toNat i ordered, (o.onPage (i + 1 : ℕ)).pageMeta
        (if ordered.length ≤ i * o.limit.toNat then 0 else ordered.length)⟩ := by
  have haccepted : (o.onPage (i + 1 : ℕ)).Accepted :=
    accepted_onPage h (Int.le_add_of_nonneg_left (Int.natCast_nonneg i)) hpage
  have hproduct : ((o.onPage (i + 1 : ℕ)).page - 1) * (o.onPage (i + 1 : ℕ)).limit = i * o.limit := by
    simp [ListOptions.onPage]
  obtain ⟨hoffset, hnonneg⟩ := (ListOptions.offset_eq_iff haccepted).2 (hproduct ▸ hi)
  have hnat : (o.onPage (i + 1 : ℕ)).offset.toNat = i * o.limit.toNat := by
    rw [hoffset, hproduct, Int.toNat_mul (Int.natCast_nonneg i) h.pos.le, Int.toNat_natCast]
  have hlimit : o.limit.toNat ≠ 0 := by
    have := h.pos
    omega
  have hempty : (page o.limit.toNat i ordered).isEmpty = true ↔
      ordered.length ≤ i * o.limit.toNat := by
    rw [page, List.isEmpty_iff, List.take_eq_nil_iff, List.drop_eq_nil_iff, or_iff_right hlimit]
  rw [readPage, if_neg (not_lt.2 hnonneg), hnat]
  simp only [← hempty]
  rfl

theorem totalPages_eq_pageCount (hcount : Counted rows) (p : ℤ) :
    ((o.onPage p).pageMeta rows.length).totalPages = (pageCount o.limit.toNat rows : ℤ) := by
  have hpages := ListOptions.totalPages_eq_ediv h (Int.natCast_nonneg rows.length) (by
    have := h.limit_le
    unfold Counted at hcount
    omega)
  obtain ⟨n, hn⟩ := Int.eq_ofNat_of_zero_le h.pos.le
  have hpos : 0 < n := by
    have := h.pos
    omega
  refine Eq.trans hpages ?_
  rw [hn, pageCount, Int.toNat_natCast, ← Nat.cast_add, Int.natCast_ediv]
  congr 1
  omega

theorem readPage_of_lt (hcount : Counted rows) {i : ℕ} (hi : i < pageCount o.limit.toNat rows)
    (ordered : List α) :
    readPage query (o.onPage (i + 1 : ℕ)) ordered =
      .ok ⟨page o.limit.toNat i ordered, (o.onPage (i + 1 : ℕ)).pageMeta
        (if ordered.length ≤ i * o.limit.toNat then 0 else ordered.length)⟩ := by
  obtain ⟨hpage, hstart⟩ := mul_le_of_lt_pageCount (Int.pos_iff_toNat_pos.1 h.pos) hi
  have hlimit : (o.limit.toNat : ℤ) = o.limit := Int.toNat_of_nonneg h.pos.le
  have hmax := h.limit_le
  unfold Counted at hcount
  refine readPage_eq h query (by omega) ?_ ordered
  have hcast : (i : ℤ) * o.limit.toNat ≤ rows.length := by exact_mod_cast hstart
  rw [hlimit] at hcast
  omega

/-- **The pages, read one after the other.** -/
theorem readAll_eq (hcount : Counted rows) {answer : ℕ → List α}
    (hanswer : ∀ i, (answer i).Perm rows) :
    readAll (readPage query) o answer =
      .ok ((List.range (pageCount o.limit.toNat rows)).flatMap fun i =>
        page o.limit.toNat i (answer i)) := by
  -- the first page says how many there are
  have hfirst : readPage query (o.onPage (0 + 1 : ℕ)) (answer 0) =
      .ok ⟨page o.limit.toNat 0 (answer 0), (o.onPage (0 + 1 : ℕ)).pageMeta rows.length⟩ := by
    rw [readPage_eq h query (by decide) (by simp; decide), (hanswer 0).length_eq]
    split_ifs with hle
    · have hzero : rows.length = 0 := by omega
      rw [hzero]
      rfl
    · rfl
  unfold readAll
  simp only [bind, Except.bind, show o.onPage 1 = o.onPage (0 + 1 : ℕ) from rfl, hfirst,
    totalPages_eq_pageCount h hcount, Int.toNat_natCast]
  rw [mapM_eq_ok fun i hi => readPage_of_lt h hcount (List.mem_range.1 hi) (answer i)]
  simp only [List.flatMap_map]

variable [LinearOrder κ] {key : α → κ}

theorem readAll_perm_iff (hcount : Counted rows) (hnodup : rows.Nodup) :
    PagesExact (readPage query) o key rows ↔ Separated key o.limit.toNat rows := by
  rw [← pages_perm_iff (Int.pos_iff_toNat_pos.1 h.pos) hnodup]
  refine forall₂_congr fun answer hanswer => ?_
  rw [readAll_eq h hcount fun i => (hanswer i).perm]
  constructor
  · rintro ⟨all, hall, hperm⟩
    obtain rfl := Except.ok.inj hall
    exact hperm
  · exact fun hperm => ⟨_, rfl, hperm⟩

theorem totals_agree_iff (hcount : Counted rows) :
    TotalsAgree (readPage query) o key rows ↔ rows = [] := by
  constructor
  · -- the page behind the last one has no row to scan the total from
    intro hall
    obtain ⟨ordered, hordered⟩ := exists_orders key rows
    have hpos : 0 < o.limit.toNat := Int.pos_iff_toNat_pos.1 h.pos
    have hlimit : (o.limit.toNat : ℤ) = o.limit := Int.toNat_of_nonneg h.pos.le
    have hmax := h.limit_le
    obtain ⟨hlast, hle⟩ := pageCount_mul hpos rows
    have hone := Nat.le_mul_of_pos_right (pageCount o.limit.toNat rows) hpos
    have hcast : (pageCount o.limit.toNat rows : ℤ) * o.limit.toNat + 1 ≤
        rows.length + o.limit.toNat := by exact_mod_cast hle
    unfold Counted at hcount
    rw [hlimit] at hcast
    have hpage : (pageCount o.limit.toNat rows : ℤ) + 1 ≤ int64Max := by omega
    have hstart : (pageCount o.limit.toNat rows : ℤ) * o.limit ≤ int64Max := by omega
    obtain ⟨r, hr, htotal, -⟩ := hall _ hpage hstart ordered hordered
    rw [readPage_eq h query hpage hstart, if_pos (by rwa [hordered.perm.length_eq])] at hr
    obtain rfl := Except.ok.inj hr
    exact List.length_eq_zero_iff.1 (Int.natCast_eq_zero.1 htotal.symm)
  · rintro rfl i hpage hstart ordered hordered
    obtain rfl := hordered.perm.eq_nil
    have hread := readPage_eq h query hpage hstart ([] : List α)
    rw [if_pos (show ([] : List α).length ≤ i * o.limit.toNat from Nat.zero_le _)] at hread
    exact ⟨_, hread, rfl, totalPages_eq_pageCount h hcount _⟩

end Pages

/-- **The pages of klines and of jobs.**  All pages together are the rows that
    match, each once, exactly if no tie crosses the end of a page; and all pages
    report the same total exactly if no row matches. -/
theorem listing_pages_iff {pf : ParseFloat} {rfc3339 : ParseRFC3339} {request : String → String}
    {o : ListOptions} (ho : parseListOptions pf rfc3339 request = .ok o) (klines : KlineTable)
    (jobs : Table Job.id) (hklines : Counted klines.rows) (hjobs : Counted jobs.rows)
    (symbolID : ℤ) :
    ((PagesExact listKlinesPage o (klineOrder o) (klineRows klines symbolID o) ↔
        Separated (klineOrder o) o.limit.toNat (klineRows klines symbolID o)) ∧
      (PagesExact listJobs o (jobOrder o) (jobRows jobs o) ↔
        Separated (jobOrder o) o.limit.toNat (jobRows jobs o))) ∧
    ((TotalsAgree listKlinesPage o (klineOrder o) (klineRows klines symbolID o) ↔
        klineRows klines symbolID o = []) ∧
      (TotalsAgree listJobs o (jobOrder o) (jobRows jobs o) ↔ jobRows jobs o = [])) := by
  have haccepted := parseListOptions_ok ho
  have hfilter : ∀ {ρ : Type} {rows : List ρ} (p : ρ → Bool), Counted rows →
      Counted (rows.filter p) := by
    intro ρ rows p hrows
    have := List.length_filter_le p rows
    unfold Counted at *
    omega
  exact ⟨⟨readAll_perm_iff haccepted (hfilter _ hklines) (nodup_klineRows klines symbolID o),
      readAll_perm_iff haccepted (hfilter _ hjobs) (nodup_jobRows jobs o)⟩,
    totals_agree_iff haccepted (hfilter _ hklines), totals_agree_iff haccepted (hfilter _ hjobs)⟩

/-- A five-minute kline of a symbol. -/
def listedKline (exchange : String) (openTime : ℤ) : NormalizedKline where
  symbolID := 1
  exchange := exchange
  sourceSymbol := "BTCUSDT"
  interval := "5m"
  openTime := openTime
  closeTime := openTime + 5 * minute
  openPrice := 1
  highPrice := 1
  lowPrice := 1
  closePrice := 1
  volume := none
  quoteVolume := none
  tradeCount := none
  takerBuyVolume := none
  takerBuyQuoteVolume := none
  isClosed := true

/-- Three klines, of which the first two tie. -/
def tiedKlines : KlineTable :=
  ⟨[listedKline "binance" minute, listedKline "bybit" minute, listedKline "binance" 0], by decide⟩

/-- With two klines on a page the tie is on the first page. -/
theorem listing_pages_iff_two :
    parseListOptions parseDecimal (fun _ => none) (fun name => if name = "limit" then "2" else "") =
      .ok (pageOptions 1 2) ∧
    PagesExact listKlinesPage (pageOptions 1 2) (klineOrder (pageOptions 1 2))
      (klineRows tiedKlines 1 (pageOptions 1 2)) := by
  have h : parseListOptions parseDecimal (fun _ => none)
      (fun name => if name = "limit" then "2" else "") = .ok (pageOptions 1 2) := by
    decide +kernel
  exact ⟨h, (listing_pages_iff h tiedKlines .empty (by unfold Counted; decide)
    (by unfold Counted; decide) 1).1.1.2 (by decide +kernel)⟩

/-- With one kline on a page the tie crosses the end of the first: read from the
    other order, the second page repeats it and a kline is missing.  The page
    behind the last reports no klines. -/
theorem pages_repeat :
    Orders (klineOrder (pageOptions 1 1)) (klineRows tiedKlines 1 (pageOptions 1 1))
      [listedKline "binance" minute, listedKline "bybit" minute, listedKline "binance" 0] ∧
    Orders (klineOrder (pageOptions 1 1)) (klineRows tiedKlines 1 (pageOptions 1 1))
      [listedKline "bybit" minute, listedKline "binance" minute, listedKline "binance" 0] ∧
    readAll listKlinesPage (pageOptions 1 1)
      (fun i => if i = 0 then
          [listedKline "binance" minute, listedKline "bybit" minute, listedKline "binance" 0]
        else [listedKline "bybit" minute, listedKline "binance" minute, listedKline "binance" 0]) =
      .ok [listedKline "binance" minute, listedKline "binance" minute, listedKline "binance" 0] ∧
    (listKlinesPage (pageOptions 4 1) [listedKline "binance" minute, listedKline "bybit" minute,
      listedKline "binance" 0]).map (·.pageMeta) = .ok ⟨4, 1, 0, 0, false⟩ :=
  ⟨⟨by decide +kernel, by decide +kernel⟩, ⟨by decide +kernel, by decide +kernel⟩,
    by decide +kernel, by decide +kernel⟩

end Aggregator.Api
