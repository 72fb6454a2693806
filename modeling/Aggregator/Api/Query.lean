/-
  The list options of a request (`internal/api/derivatives/query.go`).

  `parseListOptions` reads the query of a request; a query is what its `Get`
  answers for each name.  `offset` and `pageMeta` are the two computations with
  the page and the limit, on Go's 64-bit `int`.

  * `parseListOptions_ok`: what is known of the options of an accepted request;
  * `offset_eq_iff`, `isLeast_totalPages_iff`: the two computations give what
    they are written for exactly as long as nothing overflows.
-/
import Aggregator.Go.Strconv
import Aggregator.Lib.Checks
import Mathlib.Order.Bounds.Basic

namespace Aggregator.Api

open Aggregator.Go

def defaultLimit : ℤ := 50
def maxLimit : ℤ := 500

structure ListOptions where
  exchange : String
  search : String
  category : String
  interval : String
  period : String
  startTime : Option ℤ
  endTime : Option ℤ
  limit : ℤ
  page : ℤ
  sort : String
  direction : String
  minVolume : Option ℚ
  minOI : Option ℚ
  rankMin : Option ℤ
  rankMax : Option ℤ
deriving DecidableEq

structure PageMeta where
  page : ℤ
  limit : ℤ
  total : ℤ
  totalPages : ℤ
  hasNext : Bool
deriving DecidableEq, Repr

/-! ## The parsers of the parameters -/

def cleanLower (value : String) : String := toLower (trimSpace value)

def firstNonEmpty (values : List String) : String :=
  (values.find? fun value => trimSpace value ≠ "").getD ""

/-- `time.Parse(time.RFC3339, s)`, in UTC; nothing where it fails. -/
abbrev ParseRFC3339 := String → Option ℤ

/-- The error of an optional parameter is replaced by the caller's, so only its
    presence is kept. -/
def parseOptionalTime (rfc3339 : ParseRFC3339) (raw : String) : Except String (Option ℤ) :=
  let raw := trimSpace raw
  if raw = "" then .ok none
  else match rfc3339 raw with
    | some parsed => .ok (some parsed)
    | none => (parseInt raw).map fun seconds => some (unixSeconds seconds)

def parseOptionalFloat (pf : ParseFloat) (raw : String) : Except String (Option ℚ) :=
  let raw := trimSpace raw
  if raw = "" then .ok none
  else match pf raw with
    | (value, none) => .ok (some value)
    | (_, some err) => .error err

/-- `strconv.Atoi` differs from `ParseInt` in the text of its error only. -/
def parseOptionalInt (raw : String) : Except String (Option ℤ) :=
  let raw := trimSpace raw
  if raw = "" then .ok none else (parseInt raw).map some

/-- The parameter `limit`: a positive number, cut at `maxLimit`. -/
def parseLimit (raw : String) : Except String ℤ :=
  let raw := trimSpace raw
  if raw = "" then .ok defaultLimit
  else match parseInt raw with
    | .error _ => .error "limit must be a positive integer"
    | .ok limit =>
      if limit < 1 then .error "limit must be a positive integer"
      else .ok (if maxLimit < limit then maxLimit else limit)

/-- The parameter `page`: a positive number. -/
def parsePage (raw : String) : Except String ℤ :=
  let raw := trimSpace raw
  if raw = "" then .ok 1
  else match parseInt raw with
    | .error _ => .error "page must be a positive integer"
    | .ok page => if page < 1 then .error "page must be a positive integer" else .ok page

/-- The parameter `direction`. -/
def parseDirection (raw : String) : Except String String :=
  let direction := if cleanLower raw = "" then "desc" else cleanLower raw
  if direction ≠ "asc" ∧ direction ≠ "desc" then .error "direction must be asc or desc"
  else .ok direction

/-- The parameters are read in the order of the source: the first error is the
    answer. -/
def parseListOptions (pf : ParseFloat) (rfc3339 : ParseRFC3339) (query : String → String) :
    Except String ListOptions := do
  let interval := trimSpace (firstNonEmpty [query "interval", query "timeframe"])
  let period := trimSpace (query "period")
  let direction ← parseDirection (query "direction")
  let limit ← parseLimit (query "limit")
  let page ← parsePage (query "page")
  let startTime ← (parseOptionalTime rfc3339 (query "start_time")).mapError
    fun _ => "start_time must be RFC3339 or unix seconds"
  let endTime ← (parseOptionalTime rfc3339 (query "end_time")).mapError
    fun _ => "end_time must be RFC3339 or unix seconds"
  -- `StartTime.After(*EndTime)`, asked only where both are given
  if startTime.any fun start => endTime.any fun stop => stop < start then
    .error "start_time must be before end_time"
  let minVolume ← (parseOptionalFloat pf (query "min_volume")).mapError
    fun _ => "min_volume must be a number"
  let minOI ← (parseOptionalFloat pf (query "min_oi")).mapError
    fun _ => "min_oi must be a number"
  let rankMin ← (parseOptionalInt (query "rank_min")).mapError
    fun _ => "rank_min must be an integer"
  let rankMax ← (parseOptionalInt (query "rank_max")).mapError
    fun _ => "rank_max must be an integer"
  .ok
    { exchange := cleanLower (query "exchange")
      search := trimSpace (query "search")
      category := trimSpace (query "category")
      interval
      period := if period = "" then interval else period
      startTime, endTime, limit, page
      sort := cleanLower (query "sort")
      direction, minVolume, minOI, rankMin, rankMax }

/-- `(o.Page - 1) * o.Limit`. -/
def ListOptions.offset (o : ListOptions) : ℤ := wrap64 (wrap64 (o.page - 1) * o.limit)

def ListOptions.pageMeta (o : ListOptions) (total : ℤ) : PageMeta :=
  let totalPages :=
    if 0 < o.limit then (wrap64 (wrap64 (total + o.limit) - 1)).tdiv o.limit else 0
  { page := o.page, limit := o.limit, total, totalPages, hasNext := o.page < totalPages }

/-! ## What an accepted request says -/

theorem parseLimit_bounds {raw : String} {limit : ℤ} (h : parseLimit raw = .ok limit) :
    1 ≤ limit ∧ limit ≤ maxLimit := by
  unfold parseLimit at h
  dsimp only at h
  split_ifs at h with hraw
  · obtain rfl := Except.ok.inj h
    decide
  · cases hn : parseInt (trimSpace raw) with
    | error e => rw [hn] at h; cases h
    | ok n =>
      rw [hn] at h
      obtain ⟨hpos, heq⟩ := elseIf_eq_ok.1 h
      obtain rfl := Except.ok.inj heq
      unfold maxLimit
      split_ifs <;> omega

theorem parsePage_bounds {raw : String} {page : ℤ} (h : parsePage raw = .ok page) :
    1 ≤ page ∧ page ≤ int64Max := by
  unfold parsePage at h
  dsimp only at h
  split_ifs at h with hraw
  · obtain rfl := Except.ok.inj h
    decide
  · cases hn : parseInt (trimSpace raw) with
    | error e => rw [hn] at h; cases h
    | ok n =>
      rw [hn] at h
      obtain ⟨hpos, heq⟩ := elseIf_eq_ok.1 h
      obtain rfl := Except.ok.inj heq
      exact ⟨not_lt.1 hpos, (parseInt_bounds hn).2⟩

theorem parseDirection_cases {raw direction : String} (h : parseDirection raw = .ok direction) :
    direction = "asc" ∨ direction = "desc" := by
  unfold parseDirection at h
  dsimp only at h
  obtain ⟨hdir, heq⟩ := elseIf_eq_ok.1 h
  obtain rfl := Except.ok.inj heq
  by_contra hneither
  exact hdir (not_or.1 hneither)

/-- Options that a request can ask for: the limit and the page are positive
    `int`s, the limit is at most `maxLimit`, and the direction is one of two. -/
structure ListOptions.Accepted (o : ListOptions) : Prop where
  limit_pos : 1 ≤ o.limit
  limit_le : o.limit ≤ maxLimit
  page_pos : 1 ≤ o.page
  page_le : o.page ≤ int64Max
  direction : o.direction = "asc" ∨ o.direction = "desc"

/-- **What an accepted request says**, whatever the rest of it is. -/
theorem parseListOptions_ok {pf : ParseFloat} {rfc3339 : ParseRFC3339} {query : String → String}
    {o : ListOptions} (h : parseListOptions pf rfc3339 query = .ok o) : o.Accepted := by
  unfold parseListOptions at h
  obtain ⟨direction, hdirection, h⟩ := bind_eq_ok h
  obtain ⟨limit, hlimit, h⟩ := bind_eq_ok h
  obtain ⟨page, hpage, h⟩ := bind_eq_ok h
  obtain ⟨startTime, -, h⟩ := bind_eq_ok h
  obtain ⟨endTime, -, h⟩ := bind_eq_ok h
  obtain ⟨-, h⟩ := guard_eq_ok.1 h
  obtain ⟨minVolume, -, h⟩ := bind_eq_ok h
  obtain ⟨minOI, -, h⟩ := bind_eq_ok h
  obtain ⟨rankMin, -, h⟩ := bind_eq_ok h
  obtain ⟨rankMax, -, h⟩ := bind_eq_ok h
  obtain rfl := Except.ok.inj h
  exact
    { limit_pos := (parseLimit_bounds hlimit).1
      limit_le := (parseLimit_bounds hlimit).2
      page_pos := (parsePage_bounds hpage).1
      page_le := (parsePage_bounds hpage).2
      direction := parseDirection_cases hdirection }

/-! ## Offset and pages -/

namespace ListOptions

variable {o : ListOptions}

theorem Accepted.pos (h : o.Accepted) : 0 < o.limit := h.limit_pos

/-- The offset of an accepted request wraps once at most. -/
theorem offset_eq (h : o.Accepted) : o.offset = wrap64 ((o.page - 1) * o.limit) := by
  have hpage : wrap64 (o.page - 1) = o.page - 1 :=
    wrap64_of_mem (by have := h.page_pos; unfold int64Min; omega)
      (by have := h.page_le; omega)
  rw [offset, hpage]

theorem offset_nonneg_product (h : o.Accepted) : 0 ≤ (o.page - 1) * o.limit :=
  mul_nonneg (by have := h.page_pos; omega) (by have := h.limit_pos; omega)

/-- **The offset is the number of rows before the page** as long as that is an
    `int`. -/
theorem offset_eq_iff (h : o.Accepted) :
    (o.offset = (o.page - 1) * o.limit ∧ 0 ≤ o.offset) ↔
      (o.page - 1) * o.limit ≤ int64Max := by
  have hnonneg := offset_nonneg_product h
  rw [offset_eq h]
  constructor
  · rintro ⟨heq, -⟩
    unfold wrap64 int64Min at heq
    unfold int64Max
    omega
  · intro hle
    have hwrap : wrap64 ((o.page - 1) * o.limit) = (o.page - 1) * o.limit :=
      wrap64_of_mem (by unfold int64Min; omega) hle
    exact ⟨hwrap, by rwa [hwrap]⟩

theorem totalPages_eq (h : o.Accepted) (total : ℤ) :
    (o.pageMeta total).totalPages = (wrap64 (total + o.limit - 1)).tdiv o.limit := by
  have hwrap : wrap64 (wrap64 (total + o.limit) - 1) = wrap64 (total + o.limit - 1) := by
    unfold wrap64 int64Min
    omega
  rw [pageMeta, if_pos h.pos, hwrap]

/-- Without an overflow the number of pages is the quotient rounded up. -/
theorem totalPages_eq_ediv (h : o.Accepted) {total : ℤ} (htotal : 0 ≤ total)
    (hle : total + o.limit - 1 ≤ int64Max) :
    (o.pageMeta total).totalPages = (total + o.limit - 1) / o.limit := by
  have hlimit := h.limit_pos
  rw [totalPages_eq h, wrap64_of_mem (by unfold int64Min; omega) hle,
    Int.tdiv_eq_ediv_of_nonneg (by omega)]

/-- **The number of pages is the least that holds the rows** as long as the
    rounding up does not overflow. -/
theorem isLeast_totalPages_iff (h : o.Accepted) {total : ℤ} (htotal : 0 ≤ total)
    (hint : total ≤ int64Max) :
    IsLeast {n : ℤ | total ≤ n * o.limit} (o.pageMeta total).totalPages ↔
      total + o.limit - 1 ≤ int64Max := by
  have hlimit := h.limit_pos
  have hmax := h.limit_le
  constructor
  · -- past the largest `int` the sum is negative, and so is its quotient
    rintro ⟨hholds, -⟩
    by_contra hover
    have hneg : wrap64 (total + o.limit - 1) ≤ 0 := by
      unfold wrap64 int64Min int64Max maxLimit at *
      omega
    have hpages : (o.pageMeta total).totalPages ≤ 0 := by
      have hquotient := Int.tdiv_nonneg (neg_nonneg.2 hneg) h.pos.le
      rw [Int.neg_tdiv] at hquotient
      rw [totalPages_eq h]
      omega
    have hempty : total ≤ 0 := le_trans hholds (mul_nonpos_of_nonpos_of_nonneg hpages (by omega))
    unfold int64Max maxLimit at *
    omega
  · intro hle
    rw [totalPages_eq_ediv h htotal hle]
    refine ⟨?_, fun n hn => ?_⟩
    · -- less than one page is missing from the rounded quotient
      have hmod := Int.emod_add_mul_ediv (total + o.limit - 1) o.limit
      have hlt := Int.emod_lt_of_pos (total + o.limit - 1) h.pos
      show total ≤ (total + o.limit - 1) / o.limit * o.limit
      rw [mul_comm]
      omega
    · have hcover : total ≤ n * o.limit := hn
      rw [← Int.lt_add_one_iff, Int.ediv_lt_iff_lt_mul h.pos, add_mul,
        one_mul]
      omega

end ListOptions

/-- **Offset and pages of an accepted request**: each is the number it stands
    for exactly as long as that computation stays in the range of `int`. -/
theorem parseListOptions_paging {pf : ParseFloat} {rfc3339 : ParseRFC3339}
    {query : String → String} {o : ListOptions}
    (h : parseListOptions pf rfc3339 query = .ok o) :
    ((o.offset = (o.page - 1) * o.limit ∧ 0 ≤ o.offset) ↔
      (o.page - 1) * o.limit ≤ int64Max) ∧
    ∀ total : ℤ, 0 ≤ total → total ≤ int64Max →
      (IsLeast {n : ℤ | total ≤ n * o.limit} (o.pageMeta total).totalPages ↔
        total + o.limit - 1 ≤ int64Max) :=
  have haccepted := parseListOptions_ok h
  ⟨ListOptions.offset_eq_iff haccepted, fun _ htotal hint =>
    ListOptions.isLeast_totalPages_iff haccepted htotal hint⟩

/-- The options of a request with nothing but a page and a limit. -/
def pageOptions (page limit : ℤ) : ListOptions :=
  { exchange := "", search := "", category := "", interval := "", period := "", startTime := none,
    endTime := none, limit, page, sort := "", direction := "desc", minVolume := none,
    minOI := none, rankMin := none, rankMax := none }

theorem parseListOptions_paging_third :
    parseListOptions parseDecimal (fun _ => none)
      (fun name => if name = "page" then "3" else if name = "limit" then " 1000 " else "") =
        .ok (pageOptions 3 500) ∧
    (pageOptions 3 500).offset = 1000 ∧
    IsLeast {n : ℤ | 1001 ≤ n * 500} ((pageOptions 3 500).pageMeta 1001).totalPages := by
  have h : parseListOptions parseDecimal (fun _ => none)
      (fun name => if name = "page" then "3" else if name = "limit" then " 1000 " else "") =
        .ok (pageOptions 3 500) := by
    decide +kernel
  have hpaging := parseListOptions_paging h
  exact ⟨h, (hpaging.1.2 (by decide)).1, (hpaging.2 1001 (by decide) (by decide)).2 (by decide)⟩

/-- The largest page: the offset of its rows is negative.  And of the largest
    number of rows, no page is left. -/
theorem offset_negative :
    parseListOptions parseDecimal (fun _ => none)
      (fun name => if name = "page" then "9223372036854775807" else "") =
        .ok (pageOptions int64Max defaultLimit) ∧
    (pageOptions int64Max defaultLimit).offset = -100 ∧
    ((pageOptions int64Max defaultLimit).pageMeta int64Max).totalPages =
      -184467440737095515 := by
  decide +kernel

end Aggregator.Api
