/-
  Extrema and weighted means of a list.

  `between_weightedMean`: a mean lies between the smallest and the greatest value
  of a list that has the values of positive weight.
-/
import Mathlib.Algebra.BigOperators.Ring.List
import Mathlib.Algebra.Order.BigOperators.Group.List
import Mathlib.Algebra.Order.Field.Basic

namespace Aggregator

universe u v
variable {ι : Type u} {K : Type v} [LinearOrder K]

/-- The number lies between the smallest and the greatest of the list. -/
def Between (l : List K) (x : K) : Prop :=
  ∃ lo hi, l.min? = some lo ∧ l.max? = some hi ∧ lo ≤ x ∧ x ≤ hi

theorem exists_extrema {l : List K} (hne : l ≠ []) :
    ∃ lo hi, l.min? = some lo ∧ l.max? = some hi := by
  have hmin : l.min? ≠ none := by simpa [List.min?_eq_none_iff] using hne
  have hmax : l.max? ≠ none := by simpa [List.max?_eq_none_iff] using hne
  obtain ⟨lo, hlo⟩ := Option.ne_none_iff_exists'.1 hmin
  obtain ⟨hi, hhi⟩ := Option.ne_none_iff_exists'.1 hmax
  exact ⟨lo, hi, hlo, hhi⟩

theorem min?_le_iff {l : List K} {lo x : K} (h : l.min? = some lo) : lo ≤ x ↔ ∃ y ∈ l, y ≤ x := by
  obtain ⟨hmem, hle⟩ := List.min?_eq_some_iff.1 h
  exact ⟨fun hx => ⟨lo, hmem, hx⟩, fun ⟨y, hy, hx⟩ => (hle y hy).trans hx⟩

theorem le_max?_iff {l : List K} {hi x : K} (h : l.max? = some hi) : x ≤ hi ↔ ∃ y ∈ l, x ≤ y := by
  obtain ⟨hmem, hge⟩ := List.max?_eq_some_iff.1 h
  exact ⟨fun hx => ⟨hi, hmem, hx⟩, fun ⟨y, hy, hx⟩ => hx.trans (hge y hy)⟩

variable [Field K] [IsStrictOrderedRing K]

/-- **A weighted mean** lies between the smallest and the greatest value. -/
theorem between_weightedMean {rows : List ι} {value weight : ι → K} {l : List K}
    (hweight : ∀ i ∈ rows, 0 ≤ weight i) (hmem : ∀ i ∈ rows, 0 < weight i → value i ∈ l)
    (hpos : 0 < (rows.map weight).sum) :
    Between l ((rows.map fun i => value i * weight i).sum / (rows.map weight).sum) := by
  have hne : l ≠ [] := by
    rintro rfl
    refine hpos.ne' (List.sum_eq_zero fun w hw => ?_)
    obtain ⟨i, hi, rfl⟩ := List.mem_map.1 hw
    exact le_antisymm (not_lt.1 fun h => List.not_mem_nil (hmem i hi h)) (hweight i hi)
  obtain ⟨lo, hi, hlo, hhi⟩ := exists_extrema hne
  refine ⟨lo, hi, hlo, hhi, ?_, ?_⟩
  · rw [le_div_iff₀ hpos, ← List.sum_map_mul_left]
    refine List.sum_le_sum fun i hi => ?_
    rcases (hweight i hi).eq_or_lt with h | h
    · simp [← h]
    · exact mul_le_mul_of_nonneg_right ((List.min?_eq_some_iff.1 hlo).2 _ (hmem i hi h)) h.le
  · rw [div_le_iff₀ hpos, ← List.sum_map_mul_left]
    refine List.sum_le_sum fun i hi => ?_
    rcases (hweight i hi).eq_or_lt with h | h
    · simp [← h]
    · exact mul_le_mul_of_nonneg_right ((List.max?_eq_some_iff.1 hhi).2 _ (hmem i hi h)) h.le

theorem between_mean {l : List K} (hne : l ≠ []) : Between l (l.sum / l.length) := by
  have hlength : (0 : K) < l.length := Nat.cast_pos.2 (List.length_pos_iff.2 hne)
  have h : Between l ((l.map fun x => x * (1 : K)).sum / (l.map fun _ => (1 : K)).sum) :=
    between_weightedMean (by simp) (by simp) (by simpa using hlength)
  simpa using h

end Aggregator
