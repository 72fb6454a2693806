/-
  A limit that is applied after a filter.

  `take_filterMap_iff`: the first `n` results of a partial function on a list all
  come from the first `n` elements exactly if the function is defined on all of
  these, or on none of the others.
-/
import Mathlib.Data.List.Nodup
import Mathlib.Order.MinMax

namespace Aggregator

variable {α β κ : Type} {f : α → Option β} {i : α → κ} {j : β → κ} {l : List α} {n : ℕ}

theorem take_append_filterMap (f : α → Option β) (l : List α) (n : ℕ) :
    l.filterMap f = (l.take n).filterMap f ++ (l.drop n).filterMap f := by
  rw [← List.filterMap_append, List.take_append_drop]

theorem length_filterMap_lt {x : α} (hx : x ∈ l) (hnone : f x = none) :
    (l.filterMap f).length < l.length := by
  refine Nat.lt_of_le_of_ne (List.length_filterMap_le f l) fun heq => ?_
  have hsome := List.filterMap_length_eq_length.1 heq x hx
  rw [hnone] at hsome
  cases hsome

/-- `i` and `j` tell the elements and the results apart. -/
theorem take_filterMap_iff (hf : ∀ x y, f x = some y → j y = i x) (hnodup : (l.map i).Nodup) :
    (∀ y ∈ (l.filterMap f).take n, j y ∈ (l.take n).map i) ↔
      (∀ x ∈ l.take n, (f x).isSome) ∨ ∀ x ∈ l.drop n, f x = none := by
  have hsplit := take_append_filterMap f l n
  have hmem : ∀ {l : List α} {y}, y ∈ l.filterMap f → j y ∈ l.map i := by
    intro l y hy
    obtain ⟨x, hx, hxy⟩ := List.mem_filterMap.1 hy
    exact List.mem_map.2 ⟨x, hx, (hf x y hxy).symm⟩
  constructor
  · intro hall
    by_contra hnot
    obtain ⟨hsome, hnone⟩ := not_or.1 hnot
    push Not at hsome hnone
    obtain ⟨x, hx, hfx⟩ := hsome
    obtain ⟨x', hx', hfx'⟩ := hnone
    -- there is room for the first result of the others
    have hlt := length_filterMap_lt hx (by simpa using hfx)
    have hlen : (l.take n).length ≤ n := List.length_take_le n l
    obtain ⟨y, hy⟩ := Option.ne_none_iff_exists'.1 hfx'
    obtain ⟨b, rest, hb⟩ := List.exists_cons_of_ne_nil
      (List.ne_nil_of_mem (List.mem_filterMap.2 ⟨x', hx', hy⟩))
    have hbtake : b ∈ (l.filterMap f).take n := by
      rw [hsplit, hb, List.take_append, List.mem_append]
      refine .inr ?_
      obtain ⟨k, hk⟩ : ∃ k, n - ((l.take n).filterMap f).length = k + 1 :=
        ⟨n - ((l.take n).filterMap f).length - 1, by omega⟩
      rw [hk, List.take_succ_cons]
      exact List.mem_cons_self
    have hbdrop : j b ∈ (l.drop n).map i := hmem (hb ▸ List.mem_cons_self)
    rw [← List.take_append_drop n l, List.map_append] at hnodup
    exact (List.nodup_append.1 hnodup).2.2 _ (hall b hbtake) _ hbdrop rfl
  · rintro (hsome | hnone) y hy
    · rw [hsplit] at hy
      rcases Nat.lt_or_ge l.length n with hlt | hle
      · rw [List.drop_of_length_le hlt.le, List.filterMap_nil, List.append_nil] at hy
        exact hmem (List.mem_of_mem_take hy)
      · have hlen : ((l.take n).filterMap f).length = n := by
          rw [List.filterMap_length_eq_length.2 hsome, List.length_take, min_eq_left hle]
        rw [List.take_append_of_le_length hlen.ge, List.take_of_length_le hlen.le] at hy
        exact hmem hy
    · have hdrop : (l.drop n).filterMap f = [] := List.filterMap_eq_nil_iff.2 hnone
      rw [hsplit, hdrop, List.append_nil] at hy
      exact hmem (List.mem_of_mem_take hy)

end Aggregator
