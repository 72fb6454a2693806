/-
  Pages of an ordered list of rows, where ties may be ordered anew for each
  page.

  `Orders key rows ordered` says that `ordered` is one of the answers
  `ORDER BY key` allows; `page limit i` is its `i`-th page, counted from 0.
  A row may stand at the places from `before`, the number of rows with a smaller
  key, up to `upto`, the number of rows with no larger key.

  * `lt_before_iff`, `lt_upto_iff`: where the rows stand in any such answer;
  * `mem_page_iff`: the rows of a page, if no tie crosses the end of a page
    (`Separated`);
  * `pages_perm_iff`: the pages of all answers make up the rows, each once,
    exactly if no tie crosses the end of a page.
-/
import Mathlib.Data.List.Sort
import Mathlib.Data.List.Nodup

namespace Aggregator.Paging

variable {α κ : Type*}

/-- In a list that `p` cuts in two, the places before the cut are counted by
    `p`. -/
theorem lt_countP_iff {p : α → Bool} {l : List α} (h : l.Pairwise fun a b => p b = true → p a = true)
    {i : ℕ} {x : α} (hx : l[i]? = some x) : i < l.countP p ↔ p x = true := by
  induction l generalizing i with
  | nil => simp at hx
  | cons a l ih =>
    obtain ⟨ha, hl⟩ := List.pairwise_cons.1 h
    -- if the first row is behind the cut, all are
    have hzero : p a = false → l.countP p = 0 := by
      intro hpa
      refine List.countP_eq_zero.2 fun b hb hpb => ?_
      rw [ha b hb hpb] at hpa
      cases hpa
    cases i with
    | zero =>
      obtain rfl : a = x := by simpa using hx
      cases hpa : p a with
      | true => simp [hpa]
      | false => simp [hpa, hzero hpa]
    | succ j =>
      have hj : l[j]? = some x := by simpa using hx
      cases hpa : p a with
      | true => rw [List.countP_cons_of_pos hpa, Nat.add_lt_add_iff_right, ih hl hj]
      | false =>
        rw [List.countP_cons_of_neg (by simp [hpa]), hzero hpa]
        refine iff_of_false (by omega) fun hpx => ?_
        rw [ha x (List.mem_of_getElem? hj) hpx] at hpa
        cases hpa

/-- The `i`-th page. -/
def page (limit i : ℕ) (ordered : List α) : List α := (ordered.drop (i * limit)).take limit

/-- The number of pages. -/
def pageCount (limit : ℕ) (rows : List α) : ℕ := (rows.length + limit - 1) / limit

variable {limit : ℕ}

theorem mem_page_iff_getElem? (hlimit : 0 < limit) {i : ℕ} {l : List α} {x : α} :
    x ∈ page limit i l ↔ ∃ j, l[j]? = some x ∧ j / limit = i := by
  rw [page, List.mem_iff_getElem?]
  constructor
  · rintro ⟨j, hj⟩
    rw [List.getElem?_take] at hj
    split_ifs at hj with hlt
    rw [List.getElem?_drop] at hj
    refine ⟨i * limit + j, hj, ?_⟩
    rw [Nat.add_comm, Nat.add_mul_div_right _ _ hlimit, Nat.div_eq_of_lt hlt, Nat.zero_add]
  · rintro ⟨j, hj, rfl⟩
    refine ⟨j % limit, ?_⟩
    rw [List.getElem?_take, if_pos (Nat.mod_lt _ hlimit), List.getElem?_drop, Nat.mul_comm,
      Nat.div_add_mod]
    exact hj

theorem lt_pageCount (hlimit : 0 < limit) {rows : List α} {j : ℕ} (hj : j < rows.length) :
    j / limit < pageCount limit rows := by
  rw [pageCount, Nat.lt_iff_add_one_le, ← Nat.add_div_right j hlimit]
  exact Nat.div_le_div_right (by omega)

/-- The last page ends behind the last row, by less than a page. -/
theorem pageCount_mul (hlimit : 0 < limit) (rows : List α) :
    rows.length ≤ pageCount limit rows * limit ∧
      pageCount limit rows * limit + 1 ≤ rows.length + limit := by
  have hdiv := Nat.div_add_mod (rows.length + limit - 1) limit
  have hmod := Nat.mod_lt (rows.length + limit - 1) hlimit
  rw [pageCount, Nat.mul_comm]
  omega

/-- A page starts before the end of the rows. -/
theorem mul_le_of_lt_pageCount (hlimit : 0 < limit) {rows : List α} {i : ℕ}
    (hi : i < pageCount limit rows) :
    i + 1 ≤ rows.length + limit - 1 ∧ i * limit ≤ rows.length := by
  have hle := (Nat.le_div_iff_mul_le hlimit).1 (Nat.succ_le_of_lt hi)
  have hone := Nat.le_mul_of_pos_right (i + 1) hlimit
  rw [Nat.succ_eq_add_one] at hle
  rw [Nat.add_mul, Nat.one_mul] at hle hone
  omega

variable [LinearOrder κ] (key : α → κ)

/-- An answer of `ORDER BY key`. -/
structure Orders (rows ordered : List α) : Prop where
  perm : ordered.Perm rows
  sorted : ordered.Pairwise fun a b => key a ≤ key b

/-- The number of rows that stand before `r` in every answer. -/
def before (rows : List α) (r : α) : ℕ := rows.countP fun s => key s < key r

/-- The number of rows that may stand before `r`, and `r` itself. -/
def upto (rows : List α) (r : α) : ℕ := rows.countP fun s => key s ≤ key r

/-- The rows that tie with a row are on one page. -/
def Separated (limit : ℕ) (rows : List α) : Prop :=
  ∀ r ∈ rows, before key rows r / limit = (upto key rows r - 1) / limit

instance (limit : ℕ) (rows : List α) : Decidable (Separated key limit rows) :=
  inferInstanceAs (Decidable (∀ r ∈ rows, _))

variable {key} {rows ordered : List α}

/-- Some answer there is. -/
theorem exists_orders (key : α → κ) (rows : List α) : ∃ ordered, Orders key rows ordered := by
  refine ⟨rows.insertionSort fun a b => key a ≤ key b, List.perm_insertionSort _ _, ?_⟩
  have : Std.Total fun a b : α => key a ≤ key b := ⟨fun a b => le_total (key a) (key b)⟩
  have : IsTrans α fun a b => key a ≤ key b := ⟨fun _ _ _ => le_trans⟩
  exact List.pairwise_insertionSort _ _

namespace Orders

variable (h : Orders key rows ordered) {i : ℕ} {x : α} (hx : ordered[i]? = some x)

include h hx

theorem mem : x ∈ rows := h.perm.mem_iff.1 (List.mem_of_getElem? hx)

theorem lt_before_iff (r : α) : i < before key rows r ↔ key x < key r := by
  rw [before, ← h.perm.countP_eq, lt_countP_iff _ hx, decide_eq_true_eq]
  refine h.sorted.imp fun {a b} hab hb => ?_
  exact decide_eq_true (hab.trans_lt (of_decide_eq_true hb))

theorem lt_upto_iff (r : α) : i < upto key rows r ↔ key x ≤ key r := by
  rw [upto, ← h.perm.countP_eq, lt_countP_iff _ hx, decide_eq_true_eq]
  refine h.sorted.imp fun {a b} hab hb => ?_
  exact decide_eq_true (hab.trans (of_decide_eq_true hb))

/-- Whatever the answer, a row stands between its two counts. -/
theorem page_of_separated (hsep : Separated key limit rows) :
    i / limit = before key rows x / limit := by
  have hlow : before key rows x ≤ i := not_lt.1 fun hlt => lt_irrefl _ ((h.lt_before_iff hx x).1 hlt)
  have hhigh : i < upto key rows x := (h.lt_upto_iff hx x).2 le_rfl
  have hpage := hsep x (h.mem hx)
  refine le_antisymm ?_ (Nat.div_le_div_right hlow)
  rw [hpage]
  exact Nat.div_le_div_right (by omega)

end Orders

/-- The rows of a page are the same in every answer. -/
theorem mem_page_iff (hlimit : 0 < limit) (hsep : Separated key limit rows)
    (h : Orders key rows ordered) {i : ℕ} {x : α} :
    x ∈ page limit i ordered ↔ x ∈ rows ∧ before key rows x / limit = i := by
  rw [mem_page_iff_getElem? hlimit]
  constructor
  · rintro ⟨j, hj, rfl⟩
    exact ⟨h.mem hj, (h.page_of_separated hj hsep).symm⟩
  · rintro ⟨hx, rfl⟩
    obtain ⟨j, hj⟩ := List.mem_iff_getElem?.1 (h.perm.mem_iff.2 hx)
    exact ⟨j, hj, h.page_of_separated hj hsep⟩

/-- Two rows next to each other that tie may be exchanged. -/
theorem Orders.swap {s t : List α} {x y : α} (h : Orders key rows (s ++ x :: y :: t))
    (hkey : key x = key y) : Orders key rows (s ++ y :: x :: t) := by
  refine ⟨((List.Perm.swap x y t).append_left s).trans h.perm, ?_⟩
  have hsorted := h.sorted
  simp only [List.pairwise_append, List.pairwise_cons, List.mem_cons, forall_eq_or_imp] at hsorted ⊢
  obtain ⟨hs, ⟨⟨-, hx⟩, hy, ht⟩, hst⟩ := hsorted
  exact ⟨hs, ⟨⟨hkey.ge, hy⟩, hx, ht⟩, fun a ha => ⟨(hst a ha).2.1, (hst a ha).1, (hst a ha).2.2⟩⟩

/-- The rows between the two counts tie. -/
theorem Orders.key_eq_of_between (h : Orders key rows ordered) {i : ℕ} {x r : α}
    (hx : ordered[i]? = some x) (hlow : before key rows r ≤ i) (hhigh : i < upto key rows r) :
    key x = key r :=
  le_antisymm ((h.lt_upto_iff hx r).1 hhigh)
    (not_lt.1 fun hlt => not_lt.2 hlow ((h.lt_before_iff hx r).2 hlt))

/-- Where a page starts between two places that are on different pages. -/
theorem exists_start_between {b u : ℕ} (hlimit : 0 < limit) (hbu : b < u)
    (hcross : b / limit ≠ (u - 1) / limit) :
    ∃ k a, (k + 1) * limit = a + 1 ∧ b < a + 1 ∧ a + 1 < u := by
  have hlt : b / limit < (u - 1) / limit :=
    lt_of_le_of_ne (Nat.div_le_div_right (Nat.le_sub_one_of_lt hbu)) hcross
  obtain ⟨k, hk⟩ := Nat.exists_eq_succ_of_ne_zero (Nat.ne_zero_of_lt hlt)
  rw [hk] at hlt
  obtain ⟨a, ha⟩ : ∃ a, (k + 1) * limit = a + 1 :=
    Nat.exists_eq_succ_of_ne_zero (Nat.mul_pos k.succ_pos hlimit).ne'
  refine ⟨k, a, ha, ha ▸ (Nat.div_lt_iff_lt_mul hlimit).1 hlt, ?_⟩
  have hle := Nat.div_mul_le_self (u - 1) limit
  rw [hk, Nat.succ_eq_add_one, ha] at hle
  omega

/-- A tie that crosses the end of a page: two answers show one row on both
    sides of it. -/
theorem exists_on_two_pages (hlimit : 0 < limit) {r : α} (hr : r ∈ rows)
    (hcross : before key rows r / limit ≠ (upto key rows r - 1) / limit) :
    ∃ k x ordered ordered', k + 1 < pageCount limit rows ∧ Orders key rows ordered ∧
      Orders key rows ordered' ∧ x ∈ page limit k ordered ∧ x ∈ page limit (k + 1) ordered' := by
  obtain ⟨ordered, h⟩ := exists_orders key rows
  -- the row itself is counted by one of the counts only
  obtain ⟨j, hj⟩ := List.mem_iff_getElem?.1 (h.perm.mem_iff.2 hr)
  have hlow : before key rows r ≤ j := not_lt.1 fun hlt => lt_irrefl _ ((h.lt_before_iff hj r).1 hlt)
  have hhigh : j < upto key rows r := (h.lt_upto_iff hj r).2 le_rfl
  -- the page `k + 1` starts at `a + 1`, in the midst of the tie
  obtain ⟨k, a, ha, hbefore, hupto⟩ := exists_start_between hlimit (hlow.trans_lt hhigh) hcross
  have hlength : a + 1 < ordered.length := by
    rw [h.perm.length_eq]
    exact hupto.trans_le List.countP_le_length
  have hx := List.getElem?_eq_getElem (Nat.lt_of_succ_lt hlength)
  have hy := List.getElem?_eq_getElem hlength
  have hkeys := (h.key_eq_of_between hx (by omega) (by omega)).trans
    (h.key_eq_of_between hy (by omega) hupto).symm
  have hswap : Orders key rows
      (ordered.take a ++ ordered[a + 1] :: ordered[a] :: ordered.drop (a + 2)) := by
    refine Orders.swap ?_ hkeys
    rw [← List.drop_eq_getElem_cons, ← List.drop_eq_getElem_cons, List.take_append_drop]
    exact h
  refine ⟨k, ordered[a], ordered, _, ?_, h, hswap, ?_, ?_⟩
  · have hcount := lt_pageCount hlimit (h.perm.length_eq ▸ hlength)
    rwa [← ha, Nat.mul_div_cancel _ hlimit] at hcount
  · refine (mem_page_iff_getElem? hlimit).2 ⟨a, hx, Nat.div_eq_of_lt_le ?_ (by omega)⟩
    rw [Nat.add_mul] at ha
    omega
  · refine (mem_page_iff_getElem? hlimit).2
      ⟨a + 1, ?_, by rw [← ha, Nat.mul_div_cancel _ hlimit]⟩
    rw [List.getElem?_append_right (by simp), List.length_take,
      min_eq_left (Nat.lt_of_succ_lt hlength).le, Nat.add_sub_cancel_left]
    rfl

/-- **The pages make up the rows**, whatever answer each page is taken from,
    exactly if no tie crosses the end of a page. -/
theorem pages_perm_iff (hlimit : 0 < limit) (hnodup : rows.Nodup) :
    (∀ answer : ℕ → List α, (∀ i, Orders key rows (answer i)) →
      ((List.range (pageCount limit rows)).flatMap fun i => page limit i (answer i)).Perm rows) ↔
    Separated key limit rows := by
  constructor
  · intro hall r hr
    by_contra hcross
    obtain ⟨k, x, ordered, ordered', hk, h, h', hx, hx'⟩ := exists_on_two_pages hlimit hr hcross
    have hperm := hall (fun i => if i = k then ordered else ordered') fun i => by
      split_ifs
      · exact h
      · exact h'
    obtain ⟨-, hdisjoint⟩ := List.nodup_flatMap.1 (hperm.nodup_iff.2 hnodup)
    -- the pages `k` and `k + 1` share the row
    have hpair := List.pairwise_iff_getElem.1 hdisjoint k (k + 1) (by simp; omega) (by simpa using hk)
      k.lt_succ_self
    simp only [List.getElem_range, Function.onFun, if_neg k.succ_ne_self] at hpair
    exact hpair hx hx'
  · intro hsep answer hanswer
    refine (List.perm_ext_iff_of_nodup ?_ hnodup).2 fun x => ?_
    · refine List.nodup_flatMap.2 ⟨fun i _ => ?_, ?_⟩
      · exact ((hanswer i).perm.nodup_iff.2 hnodup).sublist
          ((List.take_sublist _ _).trans (List.drop_sublist _ _))
      · refine (List.nodup_range).imp fun {i j} hij x hx hx' => hij ?_
        rw [← ((mem_page_iff hlimit hsep (hanswer i)).1 hx).2,
          ← ((mem_page_iff hlimit hsep (hanswer j)).1 hx').2]
    · rw [List.mem_flatMap]
      constructor
      · rintro ⟨i, -, hx⟩
        exact ((mem_page_iff hlimit hsep (hanswer i)).1 hx).1
      · intro hx
        refine ⟨before key rows x / limit, List.mem_range.2 (lt_pageCount hlimit ?_),
          (mem_page_iff hlimit hsep (hanswer _)).2 ⟨hx, rfl⟩⟩
        exact lt_of_le_of_ne List.countP_le_length fun hall =>
          lt_irrefl _ (of_decide_eq_true (List.countP_eq_length.1 hall x hx))

end Aggregator.Paging
