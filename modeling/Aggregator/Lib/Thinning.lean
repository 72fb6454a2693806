/-
  Thinning out a list: a scan that keeps an element unless it is near the last one
  kept, and stops when it has kept enough of them.

  `thinAfter near room last` is the scan after `last` was kept, with room for `room`
  more.  On a list that is sorted by `r`, each element has one before it that was kept
  and that it is near to, as long as the scan has not stopped (`thinAfter_covers`).
  `Thinned` says all of it for a whole list.
-/
import Mathlib.Data.List.Chain
import Mathlib.Order.Defs.Unbundled

namespace Aggregator

universe u
variable {α : Type u}

section
variable (near : α → α → Prop) [DecidableRel near]

def thinAfter : ℕ → α → List α → List α
  | _, _, [] => []
  | 0, _, _ => []
  | room + 1, last, x :: xs =>
    if near last x then thinAfter (room + 1) last xs else x :: thinAfter room x xs

/-- At most `limit + 1` elements of a list. -/
def thin (limit : ℕ) : List α → List α
  | [] => []
  | x :: xs => x :: thinAfter near limit x xs

end

/-- What is kept of a list that is sorted by `r`. -/
structure Thinned (r near : α → α → Prop) (limit : ℕ) (xs kept : List α) : Prop where
  sublist : kept.Sublist xs
  length_le : kept.length ≤ limit
  chain : kept.IsChain fun a b => r a b ∧ ¬near a b
  head : kept.head? = xs.head?
  covers : ∀ x ∈ xs, (kept.length < limit ∨ ∃ last ∈ kept.getLast?, r x last) →
    ∃ a ∈ kept, r a x ∧ near a x

variable {r near : α → α → Prop} [DecidableRel near]

@[simp] theorem thinAfter_zero (last : α) (xs : List α) : thinAfter near 0 last xs = [] := by
  cases xs <;> rfl

theorem thinAfter_of_near {last x : α} (h : near last x) (room : ℕ) (xs : List α) :
    thinAfter near room last (x :: xs) = thinAfter near room last xs := by
  cases room with
  | zero => simp
  | succ room => exact if_pos h

theorem thinAfter_of_not_near {last x : α} (h : ¬near last x) (room : ℕ) (xs : List α) :
    thinAfter near (room + 1) last (x :: xs) = x :: thinAfter near room x xs :=
  if_neg h

theorem cons_sublist_cons_cons (a b : α) (l : List α) : (a :: l).Sublist (a :: b :: l) :=
  (List.sublist_cons_self b l).cons_cons a

theorem thinAfter_sublist (room : ℕ) (last : α) (xs : List α) :
    (thinAfter near room last xs).Sublist xs := by
  fun_induction thinAfter near room last xs with
  | case1 => exact .slnil
  | case2 => exact List.nil_sublist _
  | case3 room last x xs _ ih => exact ih.cons x
  | case4 room last x xs _ ih => exact ih.cons_cons x

theorem length_thinAfter_le (room : ℕ) (last : α) (xs : List α) :
    (thinAfter near room last xs).length ≤ room := by
  fun_induction thinAfter near room last xs with
  | case1 => exact Nat.zero_le _
  | case2 => exact Nat.zero_le _
  | case3 _ _ _ _ _ ih => exact ih
  | case4 _ _ _ _ _ ih => exact Nat.succ_le_succ ih

theorem isChain_thinAfter {room : ℕ} {last : α} {xs : List α} (hsorted : (last :: xs).Pairwise r) :
    (last :: thinAfter near room last xs).IsChain fun a b => r a b ∧ ¬near a b := by
  fun_induction thinAfter near room last xs with
  | case1 => exact .singleton _
  | case2 => exact .singleton _
  | case3 room last x xs _ ih => exact ih (hsorted.sublist (cons_sublist_cons_cons last x xs))
  | case4 room last x xs hnear ih =>
    obtain ⟨hlast, hxs⟩ := List.pairwise_cons.1 hsorted
    exact List.isChain_cons_cons.2 ⟨⟨hlast x List.mem_cons_self, hnear⟩, ih hxs⟩

/-- **Nothing is left out** before the last one kept, and nothing at all if there is room
    left. -/
theorem thinAfter_covers [Std.Refl r] [Std.Antisymm r] (hnear : ∀ x, near x x) {room : ℕ}
    {last : α} {xs : List α} (hsorted : (last :: xs).Pairwise r) {x : α} (hx : x ∈ xs)
    (h : (thinAfter near room last xs).length < room ∨
      ∃ a ∈ (last :: thinAfter near room last xs).getLast?, r x a) :
    ∃ a ∈ last :: thinAfter near room last xs, r a x ∧ near a x := by
  fun_induction thinAfter near room last xs with
  | case1 => cases hx
  | case2 xs last _ =>
    -- the scan has stopped: what does not come after `last` is `last`
    obtain ⟨a, ⟨⟩, hxa⟩ := h.resolve_left (Nat.not_lt_zero _)
    obtain rfl : last = x := antisymm_of r ((List.pairwise_cons.1 hsorted).1 x hx) hxa
    exact ⟨last, List.mem_cons_self, hxa, hnear last⟩
  | case3 room last y ys hlast ih =>
    obtain ⟨hfirst, hys⟩ := List.pairwise_cons.1 hsorted
    rcases List.mem_cons.1 hx with rfl | hx
    · exact ⟨last, List.mem_cons_self, hfirst x List.mem_cons_self, hlast⟩
    · exact ih (hsorted.sublist (cons_sublist_cons_cons last y ys)) hx h
  | case4 room last y ys _ ih =>
    rcases List.mem_cons.1 hx with rfl | hx
    · exact ⟨x, List.mem_cons_of_mem _ List.mem_cons_self, refl_of r x, hnear x⟩
    · obtain ⟨a, ha, hax⟩ := ih hsorted.of_cons hx (h.imp Nat.lt_of_succ_lt_succ id)
      exact ⟨a, List.mem_cons_of_mem _ ha, hax⟩

theorem thin_thinned [Std.Refl r] [Std.Antisymm r] (hnear : ∀ x, near x x) (limit : ℕ)
    {xs : List α} (hsorted : xs.Pairwise r) : Thinned r near (limit + 1) xs (thin near limit xs) := by
  cases xs with
  | nil => exact ⟨.slnil, Nat.zero_le _, .nil, rfl, nofun⟩
  | cons x xs =>
    refine ⟨(thinAfter_sublist limit x xs).cons_cons x,
      Nat.succ_le_succ (length_thinAfter_le limit x xs), isChain_thinAfter hsorted, rfl, ?_⟩
    intro y hy h
    rcases List.mem_cons.1 hy with rfl | hy
    · exact ⟨y, List.mem_cons_self, refl_of r y, hnear y⟩
    · exact thinAfter_covers hnear hsorted hy (h.imp Nat.lt_of_succ_lt_succ id)

end Aggregator
