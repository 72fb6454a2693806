/-
  Grouping the items of a list by a key, with one row for each group.

  A `Grouping` starts the row of a group at its first item and adds the items of
  the group to it, in their order (`group`).

  * `find_group`: the row of a group;
  * `sum_group`: a number to which each item adds its amount is conserved;
  * `group_perm_iff`: if the order in which items are added does not matter, the
    rows depend on the order of the items at most through the first item of a
    group.
-/
import Aggregator.Lib.Table
import Mathlib.Algebra.BigOperators.Group.Finset.Piecewise

namespace Aggregator

universe u v w z
variable {ι : Type u} {ρ : Type v} {κ : Type w} {M : Type z}

/-- Adding up the groups a condition selects is adding up what is in them. -/
theorem sum_buckets [DecidableEq κ] [AddCommMonoid M] {l : List ι} {bucket : ι → κ} {bs : List κ}
    (hn : bs.Nodup) (hmem : ∀ a ∈ l, bucket a ∈ bs) (value : ι → M) (keep : κ → Bool) :
    ((bs.filter keep).map fun b => ((l.filter fun a => bucket a = b).map value).sum).sum =
      ((l.filter fun a => keep (bucket a)).map value).sum := by
  rw [← List.sum_toFinset _ (hn.filter _), List.toFinset_filter]
  induction l with
  | nil => simp
  | cons a l ih =>
    have hsplit : ∀ b, (((a :: l).filter fun a => bucket a = b).map value).sum =
        (if bucket a = b then value a else 0) + ((l.filter fun a => bucket a = b).map value).sum := by
      intro b
      by_cases hb : bucket a = b <;> simp [hb]
    have ha := hmem a List.mem_cons_self
    simp only [hsplit, Finset.sum_add_distrib, ih fun a ha => hmem a (List.mem_cons_of_mem _ ha),
      Finset.sum_ite_eq, Finset.mem_filter, List.mem_toFinset, ha, true_and]
    cases hk : keep (bucket a) <;> simp [hk]

/-- How the row of a group starts and how an item is added to it. -/
structure Grouping (ι : Type u) (key : ρ → κ) where
  bucket : ι → κ
  fresh : ι → ρ
  add : ρ → ι → ρ
  key_fresh : ∀ i, key (fresh i) = bucket i
  key_add : ∀ r i, key (add r i) = key r

namespace Grouping
variable {key : ρ → κ} (g : Grouping ι key)

/-- The row of a group with the given first item. -/
def row (first : ι) (l : List ι) : ρ := l.foldl g.add (g.fresh first)

variable {g}

theorem row_append (first : ι) (l : List ι) (i : ι) :
    g.row first (l ++ [i]) = g.add (g.row first l) i := by
  rw [row, List.foldl_append]
  rfl

theorem key_row (g : Grouping ι key) (first : ι) (l : List ι) : key (g.row first l) = g.bucket first := by
  induction l using List.reverseRecOn with
  | nil => exact g.key_fresh first
  | append_singleton l i ih => rw [row_append, g.key_add, ih]

/-- A number to which each item adds its amount. -/
theorem value_row [AddCommMonoid M] {value : ρ → M} {amount : ι → M}
    (hfresh : ∀ i, value (g.fresh i) = 0) (hadd : ∀ r i, value (g.add r i) = value r + amount i)
    (first : ι) (l : List ι) : value (g.row first l) = (l.map amount).sum := by
  induction l using List.reverseRecOn with
  | nil => exact hfresh first
  | append_singleton l i ih => simp [row_append, hadd, ih]

theorem row_perm (hadd : ∀ r i j, g.add (g.add r i) j = g.add (g.add r j) i) {l l' : List ι}
    (h : l.Perm l') (first : ι) : g.row first l = g.row first l' :=
  h.foldl_eq' (fun i _ j _ r => hadd r i j) _

variable [DecidableEq κ] (g)

/-- One item. -/
def put (t : Table key) (i : ι) : Table key :=
  t.upsert (g.add (g.fresh i) i) (fun r => g.add r i) fun r => g.key_add r i

def group (l : List ι) : Table key := l.foldl g.put Table.empty

/-- The items of a group. -/
def members (l : List ι) (k : κ) : List ι := l.filter fun i => g.bucket i = k

variable {g}

theorem mem_members {l : List ι} {k : κ} {i : ι} : i ∈ g.members l k ↔ i ∈ l ∧ g.bucket i = k := by
  simp [members]

/-- **The row of a group.** -/
theorem find_group (l : List ι) (k : κ) :
    (g.group l).find k = (g.members l k).head?.map fun i => g.row i (g.members l k) := by
  induction l using List.reverseRecOn with
  | nil => rfl
  | append_singleton l x ih =>
    rw [group, List.foldl_append]
    change (g.put (g.group l) x).find k = _
    rw [put, Table.find_upsert, g.key_add, g.key_fresh, ih]
    by_cases hk : g.bucket x = k
    · have hmembers : g.members (l ++ [x]) k = g.members l k ++ [x] := by simp [members, hk]
      rw [if_pos hk, hmembers]
      cases g.members l k with
      | nil => rfl
      | cons i rest => simp [row]
    · have hmembers : g.members (l ++ [x]) k = g.members l k := by simp [members, hk]
      rw [if_neg hk, hmembers]

theorem mem_group {l : List ι} {r : ρ} :
    r ∈ g.group l ↔
      ∃ i, (g.members l (key r)).head? = some i ∧ g.row i (g.members l (key r)) = r := by
  rw [← Option.map_eq_some_iff, ← find_group, Table.find_eq_some]
  simp

/-- There is a row exactly for the groups of the items. -/
theorem mem_keys_group {l : List ι} {k : κ} :
    k ∈ (g.group l).rows.map key ↔ ∃ i ∈ l, g.bucket i = k := by
  constructor
  · rw [List.mem_map]
    rintro ⟨r, hr, rfl⟩
    obtain ⟨i, hi, -⟩ := mem_group.1 hr
    exact ⟨i, mem_members.1 (List.mem_of_head? hi)⟩
  · rintro ⟨i, hi, hk⟩
    have hne : (g.members l k).head? ≠ none :=
      mt List.head?_eq_none_iff.1 (List.ne_nil_of_mem (mem_members.2 ⟨hi, hk⟩))
    obtain ⟨j, hj⟩ := Option.ne_none_iff_exists'.1 hne
    have hfind := find_group (g := g) l k
    rw [hj, Option.map_some, Table.find_eq_some] at hfind
    exact List.mem_map.2 ⟨_, hfind⟩

/-- The rows of another grouping, where the one is an image of the other. -/
theorem rows_group_map {ι' : Type u} {ρ' : Type v} {key' : ρ' → κ} {g' : Grouping ι' key'}
    {f : ρ → ρ'} {φ : ι → ι'} (hkey : ∀ r, key' (f r) = key r)
    (hfresh : ∀ i, f (g.fresh i) = g'.fresh (φ i))
    (hadd : ∀ r i, f (g.add r i) = g'.add (f r) (φ i)) (l : List ι) :
    (g.group l).rows.map f = (g'.group (l.map φ)).rows := by
  induction l using List.reverseRecOn with
  | nil => rfl
  | append_singleton l i ih =>
    rw [List.map_append, group, group, List.foldl_append, List.foldl_append]
    have hrow : g'.add (g'.fresh (φ i)) (φ i) = f (g.add (g.fresh i) i) := by rw [hadd, hfresh]
    change ((g.group l).upsert _ _ _).rows.map f = ((g'.group (l.map φ)).upsert
      (g'.add (g'.fresh (φ i)) (φ i)) (fun r => g'.add r (φ i)) _).rows
    simp only [hrow]
    exact Table.rows_upsert_map hkey ih fun r => hadd r i

/-! ## Sums -/

/-- **A number to which each item adds its amount** is conserved. -/
theorem sum_group [AddCommMonoid M] {value : ρ → M} {amount : ι → M}
    (hfresh : ∀ i, value (g.fresh i) = 0) (hadd : ∀ r i, value (g.add r i) = value r + amount i)
    (l : List ι) : ((g.group l).rows.map value).sum = (l.map amount).sum := by
  have hrows : (g.group l).rows.map value = ((g.group l).rows.map key).map fun k =>
      ((l.filter fun i => g.bucket i = k).map amount).sum := by
    rw [List.map_map]
    refine List.map_congr_left fun r hr => ?_
    obtain ⟨i, -, hrow⟩ := mem_group.1 hr
    rw [← hrow, value_row hfresh hadd, hrow]
    rfl
  have hsum := sum_buckets (g.group l).nodup
    (fun i hi => mem_keys_group.2 ⟨i, hi, rfl⟩) amount fun _ => true
  rw [List.filter_true, List.filter_true] at hsum
  rw [hrows, hsum]

/-! ## The order of the items -/

section order
variable (hadd : ∀ r i j, g.add (g.add r i) j = g.add (g.add r j) i)
include hadd

theorem row_members_perm {l l' : List ι} (h : l.Perm l') (k : κ) (first : ι) :
    g.row first (g.members l k) = g.row first (g.members l' k) :=
  row_perm hadd (h.filter _) first

/-- If it does not matter which item of a group is the first, the rows do not
    depend on the order. -/
theorem mem_group_of_perm {l l' : List ι} (h : l.Perm l')
    (hfirst : ∀ i ∈ l, ∀ j ∈ l, g.bucket i = g.bucket j →
      g.row i (g.members l (g.bucket i)) = g.row j (g.members l (g.bucket i)))
    {r : ρ} (hr : r ∈ g.group l) : r ∈ g.group l' := by
  obtain ⟨i, hi, hrow⟩ := mem_group.1 hr
  obtain ⟨hil, hik⟩ := mem_members.1 (List.mem_of_head? hi)
  have hne : (g.members l' (key r)).head? ≠ none :=
    mt List.head?_eq_none_iff.1 (List.ne_nil_of_mem (mem_members.2 ⟨h.mem_iff.1 hil, hik⟩))
  obtain ⟨j, hj⟩ := Option.ne_none_iff_exists'.1 hne
  obtain ⟨hjl, hjk⟩ := mem_members.1 (List.mem_of_head? hj)
  refine mem_group.2 ⟨j, hj, ?_⟩
  have heq := hfirst i hil j (h.mem_iff.2 hjl) (hik.trans hjk.symm)
  rw [hik] at heq
  rw [← row_members_perm hadd h, ← heq, hrow]

/-- An item of the list is the first of its group in some order. -/
theorem exists_perm_row_mem {l : List ι} {i : ι} (hi : i ∈ l) :
    ∃ l', l.Perm l' ∧ g.row i (g.members l (g.bucket i)) ∈ g.group l' := by
  obtain ⟨l₁, l₂, rfl⟩ := List.append_of_mem hi
  refine ⟨i :: (l₁ ++ l₂), List.perm_middle, mem_group.2 ⟨i, ?_, ?_⟩⟩
  · rw [key_row g, members, List.filter_cons_of_pos (by simp)]
    rfl
  · rw [key_row g, row_members_perm hadd List.perm_middle]

/-- **The rows do not depend on the order of the items** exactly if it does not
    matter which item of a group is the first. -/
theorem group_perm_iff {l : List ι} :
    (∀ l', l.Perm l' → ∀ r, r ∈ g.group l ↔ r ∈ g.group l') ↔
      ∀ i ∈ l, ∀ j ∈ l, g.bucket i = g.bucket j →
        g.row i (g.members l (g.bucket i)) = g.row j (g.members l (g.bucket i)) := by
  constructor
  · intro h i hi j hj hij
    obtain ⟨li, hli, hri⟩ := exists_perm_row_mem hadd hi
    obtain ⟨lj, hlj, hrj⟩ := exists_perm_row_mem hadd hj
    rw [← hij] at hrj
    refine Table.eq_of_key ((h li hli _).2 hri) ((h lj hlj _).2 hrj) ?_
    rw [key_row g, key_row g, hij]
  · intro hfirst l' h r
    refine ⟨mem_group_of_perm hadd h hfirst, mem_group_of_perm hadd h.symm ?_⟩
    intro i hi j hj hij
    rw [← row_members_perm hadd h, ← row_members_perm hadd h]
    exact hfirst i (h.mem_iff.2 hi) j (h.mem_iff.2 hj) hij

end order

end Grouping

end Aggregator
