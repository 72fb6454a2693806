/-
  Serving requests from a budget, the most important ones first.

  `serve` goes through a list of requests and gives each of them what it demands
  of the budget, as long as there is some left.  The list may have been sorted
  stably; `byPosition` is then the order of its entries, the position in the
  unsorted list deciding between equals.

  * `serve_bounds`, `sum_serve`: every request is given at most its demand, and all
    of them together the budget or all they demand;
  * `serve_pairwise`: after a request that is not given all it demands, nothing is
    left;
  * `map_fst_insertionSort`: sorting by `byPosition` is sorting stably.
-/
import Mathlib.Algebra.Order.BigOperators.Group.List
import Mathlib.Algebra.Order.Group.MinMax
import Mathlib.Data.List.Sort

namespace Aggregator

universe u v
variable {α : Type u}

section serve
variable {G : Type v} [AddCommGroup G] [LinearOrder G] {demand : α → G} {budget : G} {as : List α}

/-- Each request with what it is given of the budget. -/
def serve (demand : α → G) (budget : G) : List α → List (α × G)
  | [] => []
  | a :: as => (a, min (demand a) budget) :: serve demand (budget - min (demand a) budget) as

@[simp]
theorem map_fst_serve : (serve demand budget as).map Prod.fst = as := by
  induction as generalizing budget with
  | nil => rfl
  | cons a as ih => rw [serve, List.map_cons, ih]

/-- From an empty budget nothing is given. -/
theorem serve_zero (hd : ∀ a ∈ as, 0 ≤ demand a) : ∀ p ∈ serve demand 0 as, p.2 = 0 := by
  induction as with
  | nil => simp [serve]
  | cons a as ih =>
    have hmin : min (demand a) 0 = 0 := min_eq_right (hd a (by simp))
    rw [serve, hmin, sub_zero]
    intro p hp
    rcases List.mem_cons.1 hp with rfl | hp
    · rfl
    · exact ih (fun a ha => hd a (by simp [ha])) p hp

/-- **A request that is not given all it demands is the last one** that is given
    anything. -/
theorem serve_pairwise (hd : ∀ a ∈ as, 0 ≤ demand a) :
    (serve demand budget as).Pairwise fun p q => p.2 < demand p.1 → q.2 = 0 := by
  induction as generalizing budget with
  | nil => exact .nil
  | cons a as ih =>
    have hd' : ∀ a ∈ as, 0 ≤ demand a := fun a ha => hd a (by simp [ha])
    refine .cons (fun q hq hlt => ?_) (ih hd')
    have hmin : min (demand a) budget = budget :=
      min_eq_right (le_of_not_ge fun h => hlt.ne (min_eq_left h))
    rw [hmin, sub_self] at hq
    exact serve_zero hd' q hq

/-- Leaving out who is given nothing does not change what is given. -/
theorem sum_filter_pos {l : List (α × G)} (h : ∀ p ∈ l, 0 ≤ p.2) :
    ((l.filter fun p => 0 < p.2).map Prod.snd).sum = (l.map Prod.snd).sum := by
  induction l with
  | nil => rfl
  | cons p l ih =>
    have ih := ih fun q hq => h q (by simp [hq])
    rcases (h p (by simp)).eq_or_lt with hp | hp
    · rw [List.filter_cons_of_neg (by simp [← hp]), ih, List.map_cons, List.sum_cons, ← hp, zero_add]
    · rw [List.filter_cons_of_pos (by simpa using hp), List.map_cons, List.map_cons, List.sum_cons,
        List.sum_cons, ih]

variable [IsOrderedAddMonoid G]

theorem sub_min_nonneg (d b : G) : 0 ≤ b - min d b := sub_nonneg.2 (min_le_right d b)

theorem serve_bounds (hb : 0 ≤ budget) (hd : ∀ a ∈ as, 0 ≤ demand a) :
    ∀ p ∈ serve demand budget as, 0 ≤ p.2 ∧ p.2 ≤ demand p.1 := by
  induction as generalizing budget with
  | nil => simp [serve]
  | cons a as ih =>
    intro p hp
    rcases List.mem_cons.1 hp with rfl | hp
    · exact ⟨le_min (hd a (by simp)) hb, min_le_left _ _⟩
    · exact ih (sub_min_nonneg _ _) (fun a ha => hd a (by simp [ha])) p hp

theorem sum_serve (hb : 0 ≤ budget) (hd : ∀ a ∈ as, 0 ≤ demand a) :
    ((serve demand budget as).map Prod.snd).sum = min budget (as.map demand).sum := by
  induction as generalizing budget with
  | nil => simp [serve, hb]
  | cons a as ih =>
    have hd' : ∀ a ∈ as, 0 ≤ demand a := fun a ha => hd a (by simp [ha])
    have hsum : 0 ≤ (as.map demand).sum :=
      List.sum_nonneg fun x hx => by
        obtain ⟨a, ha, rfl⟩ := List.mem_map.1 hx
        exact hd' a ha
    rw [serve, List.map_cons, List.sum_cons, ih (sub_min_nonneg _ _) hd', List.map_cons,
      List.sum_cons]
    rcases le_total (demand a) budget with h | h
    · -- the request is given all it demands
      rw [min_eq_left h, ← min_add_add_left, add_sub_cancel]
    · rw [min_eq_right h, sub_self, min_eq_left hsum, add_zero,
        min_eq_left (le_add_of_le_of_nonneg h hsum)]

end serve

section position
variable {r : α → α → Prop} [DecidableRel r]

/-- The order by `r`, and among equals by the position. -/
def byPosition (r : α → α → Prop) (p q : α × ℕ) : Prop := r p.1 q.1 ∧ (r q.1 p.1 → p.2 ≤ q.2)

instance : DecidableRel (byPosition r) := fun _ _ => inferInstanceAs (Decidable (_ ∧ (_ → _)))

theorem map_fst_orderedInsert {p : α × ℕ} {l : List (α × ℕ)} (h : ∀ q ∈ l, p.2 < q.2) :
    (l.orderedInsert (byPosition r) p).map Prod.fst = (l.map Prod.fst).orderedInsert r p.1 := by
  induction l with
  | nil => rfl
  | cons q l ih =>
    have hq : byPosition r p q ↔ r p.1 q.1 :=
      and_iff_left_of_imp fun _ _ => (h q (by simp)).le
    rw [List.orderedInsert_cons, List.map_cons, List.orderedInsert_cons]
    by_cases hr : r p.1 q.1
    · rw [if_pos (hq.2 hr), if_pos hr]
      rfl
    · rw [if_neg (mt hq.1 hr), if_neg hr, List.map_cons, ih fun q' hq' => h q' (by simp [hq'])]

/-- **Sorting stably** is sorting with the positions. -/
theorem map_fst_insertionSort {l : List (α × ℕ)} (h : l.Pairwise (·.2 < ·.2)) :
    (l.insertionSort (byPosition r)).map Prod.fst = (l.map Prod.fst).insertionSort r := by
  induction l with
  | nil => rfl
  | cons p l ih =>
    obtain ⟨hp, hl⟩ := List.pairwise_cons.1 h
    rw [List.insertionSort_cons, List.map_cons, List.insertionSort_cons, ← ih hl]
    exact map_fst_orderedInsert fun q hq => hp q ((List.mem_insertionSort _).1 hq)

end position

end Aggregator
