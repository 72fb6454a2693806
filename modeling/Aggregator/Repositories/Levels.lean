/-
  The support and resistance levels of a window
  (`internal/repositories/aggregate_analytics.go`: `computeMarketStructure`,
  `supportLevels`, `resistanceLevels`, `uniqueRounded`).

  The lows of the candles are sorted and thinned out: a low is dropped if it is less
  than `1e-9` from the last level, and three levels are enough.  The highs are treated
  the same way in the other direction, so both are proved for an order of the prices.

  * `uniqueRounded_eq_thin`: the loop is `thin` of the library;
  * `levels_of_sorted`: what the levels of sorted prices are, in either direction;
  * `marketStructure_levels`: the levels of a window with at least two candles.
-/
import Aggregator.Lib.Thinning
import Aggregator.Repositories.Structure

namespace Aggregator.Repositories

/-! ## The loop -/

/-- Two prices that make one level. -/
def NearPrice (a b : ℚ) : Prop := |a - b| < 1 / 10 ^ 9

instance : DecidableRel NearPrice := fun _ _ => inferInstanceAs (Decidable (_ < _))

theorem nearPrice_refl (a : ℚ) : NearPrice a a := by
  unfold NearPrice
  norm_num

theorem any_getLast?_append (result : List ℚ) (last value : ℚ) :
    ((result ++ [last]).getLast?.any fun level => decide (|level - value| < 1 / 10 ^ 9)) = true ↔
      NearPrice last value := by
  simp [NearPrice]

/-- The loop after `last` was found, with room for more levels. -/
theorem uniqueRoundedFrom_eq {limit room : ℕ} {result : List ℚ} {last : ℚ}
    (hlimit : result.length + 1 + (room + 1) = limit) (values : List ℚ) :
    uniqueRoundedFrom limit (result ++ [last]) values =
      result ++ last :: thinAfter NearPrice (room + 1) last values := by
  induction values generalizing room result last with
  | nil => rfl
  | cons value values ih =>
    rw [uniqueRoundedFrom]
    by_cases hnear : NearPrice last value
    · rw [if_pos ((any_getLast?_append result last value).2 hnear), thinAfter_of_near hnear]
      exact ih hlimit
    · rw [if_neg (mt (any_getLast?_append result last value).1 hnear), thinAfter_of_not_near hnear]
      have hlength : (result ++ [last] ++ [value]).length = result.length + 2 := by simp
      cases room with
      | zero =>
        rw [if_pos (by omega), thinAfter_zero, List.append_assoc]
        rfl
      | succ room =>
        have hroom : (result ++ [last]).length + 1 + (room + 1) = limit := by
          rw [List.length_append, List.length_singleton]
          omega
        rw [if_neg (by omega), ih hroom, List.append_assoc]
        rfl

theorem uniqueRounded_eq_thin (values : List ℚ) (limit : ℕ) :
    uniqueRounded values (limit + 1) = thin NearPrice limit values := by
  cases values with
  | nil => rfl
  | cons value values =>
    cases limit with
    | zero => simp [uniqueRounded, uniqueRoundedFrom, thin]
    | succ limit =>
      have hfirst : uniqueRounded (value :: values) (limit + 2) =
          uniqueRoundedFrom (limit + 2) ([] ++ [value]) values := by
        simp [uniqueRounded, uniqueRoundedFrom]
      have hroom : ([] : List ℚ).length + 1 + (limit + 1) = limit + 2 := by
        rw [List.length_nil]
        omega
      rw [hfirst, uniqueRoundedFrom_eq hroom]
      rfl

/-! ## The levels -/

/-- The levels of some prices, from the swing on; `before` is `<` for the supports and `>`
    for the resistances. -/
structure Levels (before : ℚ → ℚ → Prop) (prices : List ℚ) (swing : Option ℚ)
    (levels : List ℚ) : Prop where
  length_le : levels.length ≤ 3
  mem : ∀ level ∈ levels, level ∈ prices
  ordered : levels.Pairwise before
  apart : levels.IsChain fun a b => 1 / 10 ^ 9 ≤ |a - b|
  nonempty : levels ≠ []
  first : levels.head? = swing
  covers : ∀ price ∈ prices,
    (levels.length < 3 ∨ ∃ last ∈ levels.getLast?, ¬before last price) →
      ∃ level ∈ levels, ¬before price level ∧ |price - level| < 1 / 10 ^ 9

section
variable {le before : ℚ → ℚ → Prop} [Std.Refl le] [Std.Antisymm le] {prices sorted : List ℚ}

/-- The first of the sorted prices is the swing. -/
theorem head?_of_sorted [IsTrans ℚ le] (hperm : sorted.Perm prices) (hsorted : sorted.Pairwise le)
    {swing : ℚ} (hswing : ∀ x, le swing x ↔ ∃ price ∈ prices, le price x) :
    sorted.head? = some swing := by
  obtain ⟨price, hprice, hle⟩ := (hswing swing).1 (refl_of le swing)
  have hmem := hperm.mem_iff.2 hprice
  cases sorted with
  | nil => cases hmem
  | cons first rest =>
    have hfirst : le first price := by
      rcases List.mem_cons.1 hmem with rfl | hrest
      · exact refl_of le price
      · exact (List.pairwise_cons.1 hsorted).1 price hrest
    have hge : le swing first :=
      (hswing first).2 ⟨first, hperm.mem_iff.1 List.mem_cons_self, refl_of le first⟩
    rw [List.head?_cons, antisymm_of le (trans_of le hfirst hle) hge]

/-- **The levels of sorted prices**, in either direction. -/
theorem levels_of_sorted [IsTrans ℚ le] [IsTrans ℚ before]
    (hbefore : ∀ a b, before a b ↔ ¬le b a) (hperm : sorted.Perm prices)
    (hsorted : sorted.Pairwise le) {swing : ℚ}
    (hswing : ∀ x, le swing x ↔ ∃ price ∈ prices, le price x) :
    Levels before prices (some swing) (uniqueRounded sorted 3) := by
  have h : Thinned le NearPrice 3 sorted (uniqueRounded sorted 3) := by
    rw [uniqueRounded_eq_thin]
    exact thin_thinned nearPrice_refl 2 hsorted
  have hfirst : (uniqueRounded sorted 3).head? = some swing :=
    h.head.trans (head?_of_sorted hperm hsorted hswing)
  refine ⟨h.length_le, fun level hlevel => hperm.mem_iff.1 (h.sublist.mem hlevel), ?_, ?_, ?_,
    hfirst, fun price hprice hlast => ?_⟩
  · have hchain : (uniqueRounded sorted 3).IsChain before := by
      refine h.chain.imp fun a b ⟨hab, hnear⟩ => (hbefore a b).2 fun hba => hnear ?_
      obtain rfl : a = b := antisymm_of le hab hba
      exact nearPrice_refl a
    exact List.isChain_iff_pairwise.1 hchain
  · exact h.chain.imp fun a b hab => not_lt.1 hab.2
  · intro hnil
    rw [hnil] at hfirst
    cases hfirst
  · simp only [hbefore, not_not] at hlast ⊢
    obtain ⟨level, hlevel, hle, hnear⟩ := h.covers price (hperm.mem_iff.2 hprice) hlast
    rw [NearPrice, abs_sub_comm] at hnear
    exact ⟨level, hlevel, hle, hnear⟩

end

/-- **The levels of a window** of at least two candles: the supports are lows, from the
    smallest one up, and the resistances highs, from the greatest one down. -/
theorem marketStructure_levels (symbolID snapshotTime : ℤ) (period : String)
    {candles : List AggregateCandle} (hlen : 2 ≤ candles.length) :
    let snapshot := computeMarketStructure symbolID period snapshotTime candles
    Levels (· < ·) (candles.map (·.low)) snapshot.lastSwingLow snapshot.supportLevels ∧
      Levels (· > ·) (candles.map (·.high)) snapshot.lastSwingHigh snapshot.resistanceLevels := by
  match candles, hlen with
  | first :: next :: rest, _ =>
    constructor
    · refine levels_of_sorted (fun a b => not_le.symm) (List.perm_insertionSort _ _)
        (List.pairwise_insertionSort _ _) fun x => ?_
      rw [swingLow_first_le_iff]
      simp only [List.mem_map, exists_exists_and_eq_and]
    · refine levels_of_sorted (fun a b => not_le.symm) (List.perm_insertionSort _ _)
        (List.pairwise_insertionSort _ _) fun x => ?_
      rw [le_swingHigh_first_iff]
      simp only [List.mem_map, exists_exists_and_eq_and]

/-- Candles with lows in no order, the second and the third very near. -/
def scattered : List AggregateCandle :=
  [3, 1, 1 + 1 / 10 ^ 10, 2, 4].map fun low => ⟨0, low, low + 10, low, low⟩

theorem marketStructure_levels_scattered :
    2 ≤ scattered.length ∧
    (computeMarketStructure 1 "1h" 0 scattered).supportLevels = [1, 2, 3] ∧
    (computeMarketStructure 1 "1h" 0 scattered).resistanceLevels = [14, 13, 12] ∧
    Levels (· < ·) [3, 1, 1 + 1 / 10 ^ 10, 2, 4] (some 1) [1, 2, 3] := by
  have hlen : 2 ≤ scattered.length := by decide
  have hlevels : (computeMarketStructure 1 "1h" 0 scattered).supportLevels = [1, 2, 3] := by
    decide +kernel
  have hswing : (computeMarketStructure 1 "1h" 0 scattered).lastSwingLow = some 1 := by
    decide +kernel
  have h := (marketStructure_levels 1 0 "1h" hlen).1
  rw [hlevels, hswing] at h
  exact ⟨hlen, hlevels, by decide +kernel, h⟩

end Aggregator.Repositories
