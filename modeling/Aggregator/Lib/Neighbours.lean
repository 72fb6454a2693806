/-
  The element before an element of a list, in the order of the elements.

  `LAG(x) OVER (ORDER BY x)` gives each row the value before its own.  The values
  of the rows and those before them are the ends of intervals that have no
  element inside (`not_between_of_previous`), and every value that is missing
  between two elements lies in one of them (`exists_previous_of_between`).

  A list of integers whose steps are at most `d` leaves out none of the cells of
  width `d` between its ends (`exists_mem_cell`).
-/
import Mathlib.Data.Int.Init
import Mathlib.Data.List.MinMax

namespace Aggregator

variable {α : Type} [LinearOrder α] {l : List α} {a b t : α}

/-- The greatest element below `b`. -/
def previous (l : List α) (b : α) : Option α := (l.filter (· < b)).argmax id

theorem previous_eq_some :
    previous l b = some a ↔ (a ∈ l ∧ a < b) ∧ ∀ c ∈ l, c < b → c ≤ a := by
  constructor
  · intro h
    have hmem := List.argmax_mem h
    refine ⟨by simpa using hmem, ?_⟩
    intro c hc hlt
    exact List.le_of_mem_argmax (f := id) (List.mem_filter.2 ⟨hc, by simpa using hlt⟩) h
  · rintro ⟨⟨ha, hlt⟩, hle⟩
    have hmem : a ∈ l.filter (· < b) := List.mem_filter.2 ⟨ha, by simpa using hlt⟩
    cases h : previous l b with
    | none =>
      rw [List.argmax_eq_none.1 h] at hmem
      exact absurd hmem List.not_mem_nil
    | some c =>
      have hc := List.mem_filter.1 (List.argmax_mem h)
      have hca := hle c hc.1 (by simpa using hc.2)
      have hac := List.le_of_mem_argmax (f := id) hmem h
      exact congrArg some (le_antisymm hca hac)

theorem not_between_of_previous (h : previous l b = some a) : ∀ c ∈ l, ¬(a < c ∧ c < b) := by
  rintro c hc ⟨hac, hcb⟩
  exact absurd ((previous_eq_some.1 h).2 c hc hcb) (not_le.2 hac)

/-- A value that is missing lies between two elements that follow each other. -/
theorem exists_previous_of_between (ha : a ∈ l) (hb : b ∈ l) (hat : a < t) (htb : t < b)
    (ht : t ∉ l) : ∃ p, ∃ n ∈ l, previous l n = some p ∧ p < t ∧ t < n := by
  -- the first element after `t`
  have hne : (l.filter (t < ·)).argmin id ≠ none := by
    rw [Ne, List.argmin_eq_none]
    exact List.ne_nil_of_mem (List.mem_filter.2 ⟨hb, by simpa using htb⟩)
  obtain ⟨n, hn⟩ := Option.ne_none_iff_exists'.1 hne
  obtain ⟨hnl, htn⟩ := List.mem_filter.1 (List.argmin_mem hn)
  have htn : t < n := by simpa using htn
  have hfirst : ∀ c ∈ l, c < n → c < t := by
    intro c hc hcn
    by_contra hct
    have hlt : t < c := lt_of_le_of_ne (not_lt.1 hct) fun h => ht (h ▸ hc)
    have hle := List.le_of_mem_argmin (f := id) (List.mem_filter.2 ⟨hc, by simpa using hlt⟩) hn
    exact absurd hcn (not_lt.2 hle)
  cases hp : previous l n with
  | none =>
    have hmem : a ∈ l.filter (· < n) := List.mem_filter.2 ⟨ha, by simpa using hat.trans htn⟩
    rw [List.argmax_eq_none.1 hp] at hmem
    exact absurd hmem List.not_mem_nil
  | some p =>
    obtain ⟨⟨hpl, hpn⟩, -⟩ := previous_eq_some.1 hp
    exact ⟨p, n, hnl, hp, hfirst p hpl hpn, htn⟩

/-! ## Cells -/

theorem exists_mem_cell {d : ℤ} (hd : 0 < d) {l : List ℤ} {a z k : ℤ}
    (hsteps : l.IsChain fun x y => y ≤ x + d) (ha : l.head? = some a) (hz : l.getLast? = some z)
    (hak : a / d ≤ k) (hkz : k ≤ z / d) : ∃ t ∈ l, t / d = k := by
  induction l generalizing a with
  | nil => cases ha
  | cons x l ih =>
    obtain rfl := Option.some.inj ha
    by_cases hx : x / d = k
    · exact ⟨x, List.mem_cons_self, hx⟩
    cases l with
    | nil =>
      obtain rfl := Option.some.inj hz
      exact absurd (le_antisymm hak hkz) hx
    | cons y l =>
      obtain ⟨hstep, hsteps⟩ := List.isChain_cons_cons.1 hsteps
      -- the step leads at most to the next cell
      have hnext : y / d ≤ x / d + 1 := by
        calc y / d ≤ (x + d) / d := Int.ediv_le_ediv hd hstep
          _ = x / d + 1 := by rw [← Int.add_mul_ediv_right x 1 hd.ne', Int.one_mul]
      have hlt : x / d < k := lt_of_le_of_ne hak hx
      obtain ⟨t, ht, hcell⟩ := ih hsteps rfl (by simpa using hz) (by omega)
      exact ⟨t, List.mem_cons_of_mem _ ht, hcell⟩

end Aggregator
