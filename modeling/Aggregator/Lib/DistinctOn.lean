/-
  `SELECT DISTINCT ON (on) … ORDER BY on, time DESC`: one of the newest rows of
  each group.  Among rows of a group with the same time the database may take
  any, so the result is a relation (`DistinctOn`).

  * `DistinctOn.perm`: without ties the result is determined up to its order;
  * `DistinctOn.sum_eq`: if the newest rows of a group agree in a value, its sum is
    determined.
-/
import Aggregator.Lib.Latest
import Mathlib.Algebra.BigOperators.Group.Finset.Basic
import Mathlib.Algebra.Order.BigOperators.Group.List

namespace Aggregator

universe u v w z
variable {ρ : Type u} {κ : Type v} {τ : Type w} {M : Type z} [LinearOrder τ] {on : ρ → κ}
  {time : ρ → τ}

/-- The row is as late as any of its group. -/
def Newest (on : ρ → κ) (time : ρ → τ) (rows : List ρ) (r : ρ) : Prop :=
  r ∈ rows ∧ ∀ s ∈ rows, on s = on r → time s ≤ time r

/-- A result of the query. -/
structure DistinctOn (on : ρ → κ) (time : ρ → τ) (rows chosen : List ρ) : Prop where
  newest : ∀ r ∈ chosen, Newest on time rows r
  complete : ∀ r ∈ rows, ∃ s ∈ chosen, on s = on r
  nodup : (chosen.map on).Nodup

/-- The newest rows of a group have the same value. -/
def TiesAgree (on : ρ → κ) (time : ρ → τ) (f : ρ → M) (rows : List ρ) : Prop :=
  ∀ r s, Newest on time rows r → Newest on time rows s → on r = on s → f r = f s

namespace DistinctOn

theorem nil : DistinctOn on time [] [] := ⟨nofun, nofun, List.nodup_nil⟩

theorem singleton (r : ρ) : DistinctOn on time [r] [r] :=
  ⟨by simp [Newest], by simp, List.nodup_singleton _⟩

theorem of_perm {rows chosen chosen' : List ρ} (h : DistinctOn on time rows chosen)
    (hperm : chosen.Perm chosen') : DistinctOn on time rows chosen' where
  newest r hr := h.newest r (hperm.mem_iff.2 hr)
  complete r hr := by
    obtain ⟨s, hs, hon⟩ := h.complete r hr
    exact ⟨s, hperm.mem_iff.1 hs, hon⟩
  nodup := (hperm.map on).nodup_iff.1 h.nodup

/-- Without ties all results have the same rows. -/
theorem perm {rows chosen chosen' : List ρ} (h : DistinctOn on time rows chosen)
    (h' : DistinctOn on time rows chosen') (hties : TiesAgree on time id rows) :
    chosen.Perm chosen' := by
  rw [List.perm_ext_iff_of_nodup h.nodup.of_map h'.nodup.of_map]
  have hsub : ∀ {l l'}, DistinctOn on time rows l → DistinctOn on time rows l' → l ⊆ l' := by
    intro l l' hl hl' r hr
    obtain ⟨s, hs, hon⟩ := hl'.complete r (hl.newest r hr).1
    have hsr : s = r := hties s r (hl'.newest s hs) (hl.newest r hr) hon
    exact hsr ▸ hs
  exact fun r => ⟨fun hr => hsub h h' hr, fun hr => hsub h' h hr⟩

end DistinctOn

variable [DecidableEq κ]

/-- The first of the newest rows of a group. -/
def latestOf (on : ρ → κ) (time : ρ → τ) (rows : List ρ) (k : κ) : Option ρ :=
  (rows.filter fun r => on r = k).argmax time

theorem latestOf_eq_none {rows : List ρ} {k : κ} :
    latestOf on time rows k = none ↔ k ∉ rows.map on := by
  simp [latestOf, List.argmax_eq_none]

theorem on_latestOf {rows : List ρ} {k : κ} {r : ρ} (h : latestOf on time rows k = some r) :
    on r = k := by
  simpa using (List.mem_filter.1 (List.argmax_mem h)).2

theorem newest_latestOf {rows : List ρ} {k : κ} {r : ρ}
    (h : latestOf on time rows k = some r) : Newest on time rows r := by
  refine ⟨List.mem_of_mem_filter (List.argmax_mem h), fun s hs hon => ?_⟩
  rw [on_latestOf h] at hon
  exact List.le_of_mem_argmax (List.mem_filter.2 ⟨hs, by simpa using hon⟩) h

theorem exists_latestOf (on : ρ → κ) (time : ρ → τ) {rows : List ρ} {r : ρ} (hr : r ∈ rows) :
    ∃ s, latestOf on time rows (on r) = some s := by
  refine Option.ne_none_iff_exists'.1 fun h => ?_
  exact latestOf_eq_none.1 h (List.mem_map_of_mem hr)

/-! ## One row of each group -/

/-- The row of a group does not depend on the order. -/
theorem filter_on_eq_of_perm {rows rows' : List ρ} (h : rows.Perm rows')
    (hn : (rows.map on).Nodup) (k : κ) :
    rows.filter (fun r => on r = k) = rows'.filter fun r => on r = k := by
  have hperm := h.filter fun r => on r = k
  have hn' := (List.filter_sublist (p := fun r => decide (on r = k)).map on).nodup hn
  have hmem : ∀ r ∈ rows.filter fun r => on r = k, on r = k := fun r hr => by
    simpa using (List.mem_filter.1 hr).2
  cases hl : rows.filter fun r => on r = k with
  | nil => rw [hl] at hperm; exact hperm.nil_eq
  | cons a l =>
    cases l with
    | nil => rw [hl] at hperm; exact List.perm_singleton.1 hperm.symm ▸ rfl
    | cons b l =>
      rw [hl] at hn' hmem
      simp [hmem a, hmem b] at hn'

/-- Nor do the entries that the rows make for a group. -/
theorem filter_flatMap_eq_of_perm {α : Type z} {rows rows' : List ρ} (h : rows.Perm rows')
    (hn : (rows.map on).Nodup) {entries : ρ → List (κ × α)}
    (hentries : ∀ r, ∀ p ∈ entries r, p.1 = on r) (k : κ) :
    (rows.flatMap entries).filter (fun p => p.1 = k) =
      (rows'.flatMap entries).filter fun p => p.1 = k := by
  have hgroup : ∀ l : List ρ, (l.flatMap entries).filter (fun p => p.1 = k) =
      (l.filter fun r => on r = k).flatMap entries := by
    intro l
    induction l with
    | nil => rfl
    | cons r l ih =>
      rw [List.flatMap_cons, List.filter_append, ih]
      by_cases hr : on r = k
      · rw [List.filter_cons_of_pos (by simpa using hr), List.flatMap_cons,
          List.filter_eq_self.2 fun p hp => by simp [hentries r p hp, hr]]
      · rw [List.filter_cons_of_neg (by simpa using hr),
          List.filter_eq_nil_iff.2 fun p hp => by simp [hentries r p hp, hr], List.nil_append]
  rw [hgroup, hgroup, filter_on_eq_of_perm h hn]

/-! ## Sums -/

section sums
variable [AddCommGroup M] (on time) (f : ρ → M)

/-- The value of the newest row of a group, and zero without one. -/
def latestValue (rows : List ρ) (k : κ) : M := ((latestOf on time rows k).map f).getD 0

/-- The sum of the newest values. -/
def latestSum (rows : List ρ) : M := ∑ k ∈ (rows.map on).toFinset, latestValue on time f rows k

variable {on time f}

theorem TiesAgree.value_eq {rows : List ρ} (h : TiesAgree on time f rows) {r : ρ}
    (hr : Newest on time rows r) : latestValue on time f rows (on r) = f r := by
  obtain ⟨s, hs⟩ := exists_latestOf on time hr.1
  rw [latestValue, hs, Option.map_some, Option.getD_some]
  exact h s r (newest_latestOf hs) hr (on_latestOf hs)

/-- If ties agree, each result has the sum of the newest values. -/
theorem DistinctOn.sum_eq {rows chosen : List ρ} (h : DistinctOn on time rows chosen)
    (hties : TiesAgree on time f rows) : (chosen.map f).sum = latestSum on time f rows := by
  have hkeys : (rows.map on).toFinset = (chosen.map on).toFinset := by
    ext k
    simp only [List.mem_toFinset, List.mem_map]
    constructor
    · rintro ⟨r, hr, rfl⟩
      exact h.complete r hr
    · rintro ⟨s, hs, rfl⟩
      exact ⟨s, (h.newest s hs).1, rfl⟩
  rw [latestSum, hkeys, List.sum_toFinset _ h.nodup, List.map_map]
  exact congrArg List.sum (List.map_congr_left fun r hr => (hties.value_eq (h.newest r hr)).symm)

end sums

end Aggregator
