/-
  Running totals built one delivery at a time.

  Keys arrive in some order, possibly several times.  Each arrival of `x` sets the
  total of `x` to its own amount plus the total that the greatest smaller key has
  at that moment.  The total of `t` is then the sum of the amounts along a chain:
  `t`, the greatest key below it that had arrived before the last arrival of `t`,
  the greatest key below that one that had arrived before, and so on.

  The arrivals are given latest first.

  * `chain_eq_keysDown_iff`: the chain of `t` is all of the keys up to `t` exactly
    when, going back from the last arrival of `t`, one meets them in decreasing
    order;
  * `forall_sum_chain_iff`: exactly then the total of `t` is the sum of all
    amounts up to `t`, whatever the amounts are.
-/
import Mathlib.Algebra.BigOperators.Group.Finset.Basic
import Mathlib.Data.List.Sort
import Mathlib.Data.Nat.Cast.Basic

namespace Aggregator

universe u
variable {κ : Type u} [LinearOrder κ]

/-- The keys whose amounts the total of `t` sums, greatest first. -/
def chain : List κ → κ → List κ
  | [], _ => []
  | x :: past, t =>
    if x = t then
      x :: match (past.filter (· < x)).max? with
        | none => []
        | some s => chain past s
    else chain past t

theorem max?_filter_eq_some {l : List κ} {t s : κ} :
    (l.filter (· < t)).max? = some s ↔ (s ∈ l ∧ s < t) ∧ ∀ x ∈ l, x < t → x ≤ s := by
  rw [List.max?_eq_some_iff]
  simp only [List.mem_filter, decide_eq_true_eq, and_imp]

theorem max?_filter_eq_none {l : List κ} {t : κ} :
    (l.filter (· < t)).max? = none ↔ ∀ x ∈ l, t ≤ x := by
  rw [List.max?_eq_none_iff, List.filter_eq_nil_iff]
  simp

theorem mem_chain {past : List κ} {t s : κ} (h : s ∈ chain past t) : s ∈ past ∧ s ≤ t := by
  induction past generalizing t with
  | nil => cases h
  | cons x past ih =>
    rw [chain] at h
    split at h
    · rename_i hx
      subst hx
      rcases List.mem_cons.1 h with rfl | h
      · exact ⟨List.mem_cons_self, le_rfl⟩
      · split at h
        · cases h
        · rename_i m hm
          obtain ⟨hs, hle⟩ := ih h
          exact ⟨List.mem_cons_of_mem _ hs, hle.trans (max?_filter_eq_some.1 hm).1.2.le⟩
    · obtain ⟨hs, hle⟩ := ih h
      exact ⟨List.mem_cons_of_mem _ hs, hle⟩

theorem chain_pairwise (past : List κ) (t : κ) : (chain past t).Pairwise (· > ·) := by
  induction past generalizing t with
  | nil => exact List.Pairwise.nil
  | cons x past ih =>
    rw [chain]
    split
    · split
      · exact List.pairwise_singleton _ _
      · rename_i m hm
        refine List.pairwise_cons.2 ⟨fun s hs => ?_, ih m⟩
        exact (mem_chain hs).2.trans_lt (max?_filter_eq_some.1 hm).1.2
    · exact ih t

theorem cons_sublist_dropWhile {s : κ} {l past : List κ} (h : (s :: l).Sublist past) :
    (s :: l).Sublist (past.dropWhile (· ≠ s)) := by
  induction past with
  | nil => cases h
  | cons x past ih =>
    by_cases hx : x = s
    · subst hx
      rwa [List.dropWhile_cons_of_neg (by simp)]
    · rw [List.dropWhile_cons_of_pos (by simpa using hx)]
      rcases List.sublist_cons_iff.1 h with h | ⟨r, hr, -⟩
      · exact ih h
      · exact absurd (List.cons.inj hr).1.symm hx

theorem chain_sublist (past : List κ) (t : κ) :
    (chain past t).Sublist (past.dropWhile (· ≠ t)) := by
  induction past generalizing t with
  | nil => exact List.Sublist.slnil
  | cons x past ih =>
    rw [chain]
    split
    · rename_i hx
      subst hx
      rw [List.dropWhile_cons_of_neg (by simp)]
      refine List.Sublist.cons_cons _ ?_
      split
      · exact List.nil_sublist _
      · exact (ih _).trans (List.dropWhile_sublist _)
    · rename_i hx
      rw [List.dropWhile_cons_of_pos (by simpa using hx)]
      exact ih t

/-- The greatest key of a decreasing list is its first. -/
theorem eq_head_of_le {x y : κ} {l : List κ} (hl : (y :: l).Pairwise (· > ·)) (hx : x ∈ y :: l)
    (hle : y ≤ x) : y = x := by
  rcases List.mem_cons.1 hx with rfl | hx
  · rfl
  · exact absurd hle (not_le.2 ((List.pairwise_cons.1 hl).1 x hx))

/-- Keys met in decreasing order, going back from the last arrival of `t`, are the
    chain, if they are all keys up to `t`. -/
theorem chain_eq_of_sublist {past l : List κ} {T : Finset κ} {t : κ} (hT : ∀ x ∈ past, x ∈ T)
    (hl : l.Pairwise (· > ·)) (hmem : ∀ s, s ∈ l ↔ s ∈ T ∧ s ≤ t)
    (h : l.Sublist (past.dropWhile (· ≠ t))) : chain past t = l := by
  induction past generalizing t l with
  | nil => exact (List.sublist_nil.1 h).symm
  | cons x past ih =>
    have hT' : ∀ y ∈ past, y ∈ T := fun y hy => hT y (List.mem_cons_of_mem _ hy)
    rw [chain]
    split
    · rename_i hx
      subst hx
      rw [List.dropWhile_cons_of_neg (by simp)] at h
      have hxl : x ∈ l := (hmem x).2 ⟨hT x List.mem_cons_self, le_rfl⟩
      cases l with
      | nil => cases hxl
      | cons y l =>
        obtain ⟨hy, hl'⟩ := List.pairwise_cons.1 hl
        obtain rfl : y = x := eq_head_of_le hl hxl ((hmem y).1 List.mem_cons_self).2
        have hsub : l.Sublist past := List.cons_sublist_cons.1 h
        congr 1
        split
        · rename_i hnone
          cases l with
          | nil => rfl
          | cons z l =>
            exact absurd (max?_filter_eq_none.1 hnone z (hsub.subset List.mem_cons_self))
              (not_le.2 (hy z List.mem_cons_self))
        · rename_i s hs
          obtain ⟨⟨hsp, hlt⟩, hmax⟩ := max?_filter_eq_some.1 hs
          have hmem' : ∀ z, z ∈ l ↔ z ∈ T ∧ z ≤ s := by
            intro z
            constructor
            · intro hz
              refine ⟨((hmem z).1 (List.mem_cons_of_mem _ hz)).1, ?_⟩
              exact hmax z (hsub.subset hz) (hy z hz)
            · rintro ⟨hzT, hzs⟩
              have hz := (hmem z).2 ⟨hzT, hzs.trans hlt.le⟩
              exact (List.mem_cons.1 hz).resolve_left (hzs.trans_lt hlt).ne
          have hsl : s ∈ l := (hmem' s).2 ⟨hT' s hsp, le_rfl⟩
          refine ih hT' hl' hmem' ?_
          cases l with
          | nil => cases hsl
          | cons z l =>
            obtain rfl : z = s := eq_head_of_le hl' hsl ((hmem' z).1 List.mem_cons_self).2
            exact cons_sublist_dropWhile hsub
    · rename_i hx
      rw [List.dropWhile_cons_of_pos (by simpa using hx)] at h
      exact ih hT' hl hmem h

/-- The keys of `past` up to `t`. -/
def keysUpTo (past : List κ) (t : κ) : Finset κ := past.toFinset.filter (· ≤ t)

theorem mem_keysUpTo {past : List κ} {t s : κ} : s ∈ keysUpTo past t ↔ s ∈ past ∧ s ≤ t := by
  simp [keysUpTo]

/-- Those keys in decreasing order. -/
def keysDown (past : List κ) (t : κ) : List κ :=
  (past.dedup.filter (· ≤ t)).insertionSort (· ≥ ·)

theorem mem_keysDown {past : List κ} {t s : κ} : s ∈ keysDown past t ↔ s ∈ past ∧ s ≤ t := by
  simp [keysDown, List.mem_insertionSort]

theorem keysDown_pairwise (past : List κ) (t : κ) : (keysDown past t).Pairwise (· > ·) := by
  have hnd : (keysDown past t).Nodup :=
    (List.perm_insertionSort _ _).nodup_iff.2 ((List.nodup_dedup past).filter _)
  exact ((List.pairwise_insertionSort (· ≥ ·) _).and hnd).imp fun ⟨hle, hne⟩ =>
    lt_of_le_of_ne hle hne.symm

theorem nodup_of_pairwise_gt {l : List κ} (h : l.Pairwise (· > ·)) : l.Nodup :=
  h.imp fun h => h.ne'

theorem keysDown_toFinset (past : List κ) (t : κ) :
    (keysDown past t).toFinset = keysUpTo past t := by
  ext s
  rw [List.mem_toFinset, mem_keysDown, mem_keysUpTo]

/-- All keys up to `t` are met in decreasing order, going back from the last
    arrival of `t`. -/
def InOrder (past : List κ) (t : κ) : Prop :=
  (keysDown past t).Sublist (past.dropWhile (· ≠ t))

instance (past : List κ) (t : κ) : Decidable (InOrder past t) :=
  inferInstanceAs (Decidable (List.Sublist _ _))

theorem chain_eq_keysDown_iff (past : List κ) (t : κ) :
    chain past t = keysDown past t ↔ InOrder past t := by
  constructor
  · intro h
    rw [InOrder, ← h]
    exact chain_sublist past t
  · intro h
    refine chain_eq_of_sublist (T := past.toFinset) (fun x hx => List.mem_toFinset.2 hx)
      (keysDown_pairwise past t) (fun s => ?_) h
    rw [mem_keysDown, List.mem_toFinset]

section
variable {α : Type} [AddCommMonoidWithOne α] [CharZero α]

theorem forall_sum_chain_iff (past : List κ) (t : κ) :
    (∀ δ : κ → α, ((chain past t).map δ).sum = ∑ s ∈ keysUpTo past t, δ s) ↔
      InOrder past t := by
  have hsum : ∀ δ : κ → α, ∑ s ∈ keysUpTo past t, δ s = ((keysDown past t).map δ).sum := by
    intro δ
    rw [← keysDown_toFinset]
    exact List.sum_toFinset δ (nodup_of_pairwise_gt (keysDown_pairwise past t))
  rw [← chain_eq_keysDown_iff]
  constructor
  · intro h
    -- with all amounts one, the chain has as many keys as there are up to `t`
    have hlen : (chain past t).length = (keysDown past t).length := by
      have hone := (h fun _ => 1).trans (hsum _)
      simpa using hone
    have hsub : chain past t ⊆ keysDown past t := fun s hs => mem_keysDown.2 (mem_chain hs)
    have hperm : (chain past t).Perm (keysDown past t) :=
      (List.subperm_of_subset (nodup_of_pairwise_gt (chain_pairwise past t)) hsub).perm_of_length_le
        hlen.ge
    exact hperm.eq_of_pairwise' ((chain_pairwise past t).imp fun h => h.le)
      ((keysDown_pairwise past t).imp fun h => h.le)
  · intro h δ
    rw [h, hsum]

end

end Aggregator
