/-
  Tables with a unique key, and the statements of SQL on them.

  A `Table key` is a list of rows no two of which have the same key, so a table
  is also the finite map `Table.find` from keys to rows, and a statement is
  described by what it does to that map.

  * `update p f` is `UPDATE ... SET f WHERE p`, `delete p` is
    `DELETE ... WHERE p`;
  * `upsert r m` is `INSERT ... ON CONFLICT DO UPDATE`, `m` giving the row that
    replaces an old one, and `insertNew r` is `ON CONFLICT DO NOTHING`;
  * `upsertAll` inserts the rows of a query in this way;
  * `put` is the assignment to a key of a map, `putAll` a loop of them;
  * `find_update`, `find_delete`, `find_upsert`, `find_insertNew` and
    `find_upsertAll` are their descriptions.

  The order of the rows is that of the list; nothing depends on it except the
  order in which a query without `ORDER BY` returns them.
-/
import Mathlib.Data.List.Nodup
import Mathlib.Data.List.Lookmap
import Mathlib.Data.List.Sort

namespace Aggregator

universe u v
variable {κ : Type u} {ρ : Type v}

/-- Where keys are distinct, one element has a given one. -/
theorem filter_eq_singleton [DecidableEq κ] {g : ρ → κ} {l : List ρ} (h : (l.map g).Nodup) {a : ρ}
    (ha : a ∈ l) : (l.filter fun b => g b = g a) = [a] := by
  induction l with
  | nil => cases ha
  | cons b l ih =>
    rw [List.map_cons, List.nodup_cons] at h
    obtain ⟨hb, hl⟩ := h
    rcases List.mem_cons.1 ha with rfl | ha
    · rw [List.filter_cons_of_pos (by simp), List.filter_eq_nil_iff.2]
      intro c hc hk
      exact hb (of_decide_eq_true hk ▸ List.mem_map_of_mem hc)
    · rw [List.filter_cons_of_neg, ih hl ha]
      intro hk
      exact hb (of_decide_eq_true hk ▸ List.mem_map_of_mem ha)

/-- A list of rows with distinct keys. -/
structure Table (key : ρ → κ) where
  rows : List ρ
  nodup : (rows.map key).Nodup

namespace Table
variable {key : ρ → κ}

instance : Membership ρ (Table key) := ⟨fun t r => r ∈ t.rows⟩

theorem mem_rows {t : Table key} {r : ρ} : r ∈ t.rows ↔ r ∈ t := Iff.rfl

@[ext] theorem ext {t u : Table key} (h : t.rows = u.rows) : t = u := by
  cases t; cases u; simpa using h

def empty : Table key := ⟨[], List.nodup_nil⟩

theorem eq_of_key {t : Table key} {r s : ρ} (hr : r ∈ t) (hs : s ∈ t) (h : key r = key s) :
    r = s :=
  List.inj_on_of_nodup_map t.nodup hr hs h

/-- `UPDATE ... SET f WHERE p`. -/
def update (t : Table key) (p : ρ → Bool) (f : ρ → ρ) (hf : ∀ r, key (f r) = key r) :
    Table key where
  rows := t.rows.map fun r => if p r then f r else r
  nodup := by
    have : (key ∘ fun r => if p r then f r else r) = key := by
      funext r; simp only [Function.comp]; split <;> simp [hf]
    rw [List.map_map, this]; exact t.nodup

/-- `DELETE ... WHERE p`. -/
def delete (t : Table key) (p : ρ → Bool) : Table key where
  rows := t.rows.filter fun r => !p r
  nodup := t.nodup.sublist (List.filter_sublist.map key)

theorem mem_update {t : Table key} {p : ρ → Bool} {f : ρ → ρ} {hf : ∀ r, key (f r) = key r}
    {r : ρ} : r ∈ t.update p f hf ↔ ∃ s ∈ t, (if p s then f s else s) = r := List.mem_map

theorem mem_delete {t : Table key} {p : ρ → Bool} {r : ρ} :
    r ∈ t.delete p ↔ r ∈ t ∧ p r = false := by
  change r ∈ t.rows.filter _ ↔ _
  rw [List.mem_filter]; simp [mem_rows]

instance (t : Table key) (p : ρ → Prop) [DecidablePred p] : Decidable (∀ r ∈ t, p r) :=
  inferInstanceAs (Decidable (∀ r ∈ t.rows, p r))

variable [DecidableEq κ]

/-- The row with key `k`. -/
def find (t : Table key) (k : κ) : Option ρ := t.rows.find? fun r => key r = k

theorem find_eq_some {t : Table key} {k : κ} {r : ρ} : t.find k = some r ↔ r ∈ t ∧ key r = k := by
  constructor
  · intro h
    exact ⟨List.mem_of_find?_eq_some h, by simpa using List.find?_some h⟩
  · rintro ⟨hr, rfl⟩
    have hs : (t.find (key r)).isSome := List.find?_isSome.2 ⟨r, hr, by simp⟩
    obtain ⟨s, hs⟩ := Option.isSome_iff_exists.1 hs
    have hk : key s = key r := by simpa using List.find?_some hs
    rwa [eq_of_key (List.mem_of_find?_eq_some hs) hr hk] at hs

theorem find_eq_none {t : Table key} {k : κ} : t.find k = none ↔ ∀ r ∈ t, key r ≠ k := by
  rw [find, List.find?_eq_none]; simp [mem_rows]

theorem find_key {t : Table key} {k : κ} {r : ρ} (h : t.find k = some r) : key r = k :=
  (find_eq_some.1 h).2

theorem find_of_mem {t : Table key} {r : ρ} (h : r ∈ t) : t.find (key r) = some r :=
  find_eq_some.2 ⟨h, rfl⟩

@[simp] theorem find_empty (k : κ) : (empty : Table key).find k = none := rfl

/-- A table is determined as a map by what it holds. -/
theorem find_eq_iff {t : Table key} {k : κ} {o : Option ρ} (ho : ∀ r, o = some r → key r = k) :
    t.find k = o ↔ ∀ r, key r = k → (r ∈ t ↔ o = some r) := by
  constructor
  · rintro rfl r rfl
    rw [find_eq_some]; simp
  · intro h
    cases o with
    | some r => exact find_eq_some.2 ⟨(h r (ho r rfl)).2 rfl, ho r rfl⟩
    | none => exact find_eq_none.2 fun r hr hk => by simpa using (h r hk).1 hr

@[simp] theorem find_update (t : Table key) (p : ρ → Bool) (f : ρ → ρ)
    (hf : ∀ r, key (f r) = key r) (k : κ) :
    (t.update p f hf).find k = (t.find k).map fun r => if p r then f r else r := by
  have hk : ∀ r, key (if p r then f r else r) = key r := by intro r; split <;> simp [hf]
  rw [find_eq_iff]
  · rintro r rfl
    simp only [mem_update, Option.map_eq_some_iff, find_eq_some]
    constructor
    · rintro ⟨s, hs, rfl⟩; exact ⟨s, ⟨hs, (hk s).symm⟩, rfl⟩
    · rintro ⟨s, ⟨hs, -⟩, h⟩; exact ⟨s, hs, h⟩
  · rintro r h
    obtain ⟨s, hs, rfl⟩ := Option.map_eq_some_iff.1 h
    rw [hk, find_key hs]

@[simp] theorem find_delete (t : Table key) (p : ρ → Bool) (k : κ) :
    (t.delete p).find k = (t.find k).filter fun r => !p r := by
  rw [find_eq_iff]
  · rintro r rfl
    simp [mem_delete, Option.filter_eq_some_iff, find_eq_some]
  · rintro r h
    exact find_key (Option.filter_eq_some_iff.1 h).1

/-- `INSERT ... ON CONFLICT (key) DO NOTHING`. -/
def insertNew (t : Table key) (r : ρ) : Table key :=
  if h : t.find (key r) = none then
    ⟨t.rows ++ [r], by
      rw [List.map_append, List.nodup_append_comm, List.map_singleton, List.singleton_append,
        List.nodup_cons, List.mem_map]
      refine ⟨?_, t.nodup⟩
      rintro ⟨s, hs, hk⟩
      exact find_eq_none.1 h s hs hk⟩
  else t

theorem mem_insertNew {t : Table key} {r s : ρ} :
    s ∈ t.insertNew r ↔ s ∈ t ∨ s = r ∧ t.find (key r) = none := by
  unfold insertNew
  split
  · change s ∈ t.rows ++ [r] ↔ _; simp [*, mem_rows]
  · simp [*]

@[simp] theorem find_insertNew (t : Table key) (r : ρ) (k : κ) :
    (t.insertNew r).find k = (t.find k).or (if key r = k then some r else none) := by
  rw [find_eq_iff]
  · rintro s rfl
    rw [mem_insertNew, Option.or_eq_some_iff, find_eq_some]
    constructor
    · rintro (h | ⟨rfl, h⟩)
      · exact .inl ⟨h, rfl⟩
      · exact .inr ⟨h, by simp⟩
    · rintro (⟨h, -⟩ | ⟨h, h'⟩)
      · exact .inl h
      · split at h'
        · rename_i hk; obtain rfl := Option.some.inj h'; exact .inr ⟨rfl, h⟩
        · cases h'
  · intro s h
    rcases Option.or_eq_some_iff.1 h with h | ⟨-, h⟩
    · exact find_key h
    · split at h
      · obtain rfl := Option.some.inj h; assumption
      · cases h

/-- Inserting several rows. -/
def insertAll (t : Table key) (rs : List ρ) : Table key := rs.foldl insertNew t

theorem mem_insertAll {t : Table key} {rs : List ρ} {r : ρ} (h : r ∈ t.insertAll rs) :
    r ∈ t ∨ r ∈ rs := by
  induction rs generalizing t with
  | nil => exact .inl h
  | cons s rs ih =>
    rcases ih h with h | h
    · rcases mem_insertNew.1 h with h | ⟨rfl, -⟩
      exacts [.inl h, .inr List.mem_cons_self]
    · exact .inr (List.mem_cons_of_mem _ h)

theorem mem_insertAll_of_mem {t : Table key} (rs : List ρ) {r : ρ} (h : r ∈ t) :
    r ∈ t.insertAll rs := by
  induction rs generalizing t with
  | nil => exact h
  | cons s rs ih => exact ih (mem_insertNew.2 (.inl h))

/-- The key of a row that is inserted is there. -/
theorem exists_insertAll {t : Table key} {rs : List ρ} {r : ρ} (h : r ∈ rs) :
    ∃ s ∈ t.insertAll rs, key s = key r := by
  induction rs generalizing t with
  | nil => cases h
  | cons s rs ih =>
    rcases List.mem_cons.1 h with rfl | h
    · cases hfind : t.find (key r) with
      | none => exact ⟨r, mem_insertAll_of_mem rs (mem_insertNew.2 (.inr ⟨rfl, hfind⟩)), rfl⟩
      | some s =>
        obtain ⟨hs, hk⟩ := find_eq_some.1 hfind
        exact ⟨s, mem_insertAll_of_mem rs (mem_insertNew.2 (.inl hs)), hk⟩
    · exact ih h

/-- Where the key identifies the row, inserting rows adds them. -/
theorem mem_insertAll_iff {t : Table key} {rs : List ρ}
    (hkey : ∀ r, r ∈ t ∨ r ∈ rs → ∀ s ∈ rs, key r = key s → r = s) {r : ρ} :
    r ∈ t.insertAll rs ↔ r ∈ t ∨ r ∈ rs := by
  refine ⟨mem_insertAll, ?_⟩
  induction rs generalizing t with
  | nil => rintro (h | h); exacts [h, absurd h List.not_mem_nil]
  | cons s rs ih =>
    have hs : s ∈ t.insertNew s := by
      rw [mem_insertNew]
      cases hfind : t.find (key s) with
      | none => exact .inr ⟨rfl, rfl⟩
      | some r' =>
        obtain ⟨hr', hk⟩ := find_eq_some.1 hfind
        exact .inl (hkey r' (.inl hr') s List.mem_cons_self hk ▸ hr')
    have hold : ∀ r', r' ∈ t.insertNew s ∨ r' ∈ rs → r' ∈ t ∨ r' ∈ s :: rs := by
      rintro r' (h | h)
      · rcases mem_insertNew.1 h with h | ⟨rfl, -⟩
        exacts [.inl h, .inr List.mem_cons_self]
      · exact .inr (List.mem_cons_of_mem _ h)
    intro h
    refine ih (fun r' hr' s' hs' => hkey r' (hold r' hr') s' (List.mem_cons_of_mem _ hs')) ?_
    rcases h with h | h
    · exact .inl (mem_insertNew.2 (.inl h))
    · rcases List.mem_cons.1 h with rfl | h
      exacts [.inl hs, .inr h]

/-- A key the table does not hold, as a sequence gives one. -/
def freshKey {key : ρ → ℤ} (t : Table key) : ℤ := (t.rows.map key).foldr max 0 + 1

theorem freshKey_not_mem {key : ρ → ℤ} (t : Table key) : ∀ r ∈ t, key r ≠ t.freshKey := by
  have hle : ∀ (l : List ℤ), ∀ a ∈ l, a ≤ l.foldr max 0 := by
    intro l
    induction l with
    | nil => intro a ha; cases ha
    | cons b l ih =>
      intro a ha
      rcases List.mem_cons.1 ha with rfl | ha
      · exact le_max_left _ _
      · exact (ih a ha).trans (le_max_right _ _)
  intro r hr h
  have := hle (t.rows.map key) (key r) (List.mem_map_of_mem hr)
  unfold freshKey at h
  omega

theorem find_freshKey {key : ρ → ℤ} (t : Table key) : t.find t.freshKey = none :=
  find_eq_none.2 t.freshKey_not_mem

/-- `INSERT ... ON CONFLICT (key) DO UPDATE`: `m old` is the row that replaces
    `old`. -/
def upsert (t : Table key) (r : ρ) (m : ρ → ρ) (hm : ∀ s, key (m s) = key s) : Table key :=
  if t.find (key r) = none then t.insertNew r else t.update (fun s => key s = key r) m hm

/-- A row with a new key is appended. -/
theorem rows_upsert_of_none {t : Table key} {r : ρ} {m : ρ → ρ} {hm : ∀ s, key (m s) = key s}
    (h : t.find (key r) = none) : (t.upsert r m hm).rows = t.rows ++ [r] := by
  rw [upsert, if_pos h, insertNew, dif_pos h]

/-- A statement on the images of the rows. -/
theorem rows_upsert_map {ρ' : Type v} {key' : ρ' → κ} {f : ρ → ρ'} (hf : ∀ r, key' (f r) = key r)
    {t : Table key} {t' : Table key'} (ht : t.rows.map f = t'.rows) {r : ρ} {m : ρ → ρ}
    {m' : ρ' → ρ'} {hm : ∀ s, key (m s) = key s} {hm' : ∀ s, key' (m' s) = key' s}
    (hfm : ∀ s, f (m s) = m' (f s)) :
    (t.upsert r m hm).rows.map f = (t'.upsert (f r) m' hm').rows := by
  have hfind : t'.find (key' (f r)) = (t.find (key r)).map f := by
    simp only [find, ← ht, List.find?_map, Function.comp_def, hf]
  cases hr : t.find (key r) with
  | none =>
    rw [rows_upsert_of_none hr, rows_upsert_of_none (by rw [hfind, hr]; rfl), List.map_append, ht]
    rfl
  | some s =>
    rw [upsert, upsert, if_neg (by simp [hr]), if_neg (by simp [hfind, hr])]
    simp only [update, ← ht, List.map_map]
    refine List.map_congr_left fun s _ => ?_
    simp only [Function.comp, hf]
    split <;> simp [hfm]

@[simp] theorem find_upsert (t : Table key) (r : ρ) (m : ρ → ρ) (hm : ∀ s, key (m s) = key s)
    (k : κ) :
    (t.upsert r m hm).find k =
      if key r = k then some ((t.find k).elim r m) else t.find k := by
  unfold upsert
  split
  · rename_i h
    rw [find_insertNew]
    split
    · rename_i hk; subst hk; simp [h]
    · simp
  · rename_i h
    rw [find_update]
    split
    · rename_i hk; subst hk
      obtain ⟨s, hs⟩ := Option.ne_none_iff_exists'.1 h
      simp [hs, find_key hs]
    · rename_i hk
      cases hs : t.find k with
      | none => rfl
      | some s => simp [find_key hs, Ne.symm hk]

/-- `INSERT ... SELECT ... ON CONFLICT (key) DO UPDATE`: `m r old` is the row that
    replaces `old` when `r` is to be inserted.  Postgres takes the statement only
    if the keys of the rows differ. -/
def upsertAll (t : Table key) (rs : List ρ) (m : ρ → ρ → ρ) (hm : ∀ r s, key (m r s) = key s) :
    Table key :=
  rs.foldl (fun t r => t.upsert r (m r) (hm r)) t

theorem find_upsertAll (t : Table key) {rs : List ρ} (hrs : (rs.map key).Nodup) (m : ρ → ρ → ρ)
    (hm : ∀ r s, key (m r s) = key s) (k : κ) :
    (t.upsertAll rs m hm).find k =
      (rs.find? fun r => key r = k).elim (t.find k) fun r => some ((t.find k).elim r (m r)) := by
  induction rs generalizing t with
  | nil => rfl
  | cons r rs ih =>
    obtain ⟨hr, hrs⟩ := List.nodup_cons.1 (List.map_cons ▸ hrs)
    change ((t.upsert r (m r) (hm r)).upsertAll rs m hm).find k = _
    rw [ih _ hrs, find_upsert, List.find?_cons]
    by_cases hk : key r = k
    · -- no other row has the key of the first
      have hnone : (rs.find? fun s => key s = k) = none := by
        rw [List.find?_eq_none]
        intro s hs hsk
        exact hr (List.mem_map.2 ⟨s, hs, (by simpa using hsk : key s = k).trans hk.symm⟩)
      simp [hk, hnone]
    · simp [hk]

/-- The rows that are not conflicted with stay, and a row to be inserted is there
    or has replaced the one with its key. -/
theorem mem_upsertAll {t : Table key} {rs : List ρ} (hrs : (rs.map key).Nodup) {m : ρ → ρ → ρ}
    {hm : ∀ r s, key (m r s) = key s} {s : ρ} :
    s ∈ t.upsertAll rs m hm ↔ (s ∈ t ∧ ∀ r ∈ rs, key r ≠ key s) ∨
      ∃ r ∈ rs, (t.find (key r) = none ∧ s = r) ∨ ∃ old ∈ t, key old = key r ∧ s = m r old := by
  have hiff : s ∈ t.upsertAll rs m hm ↔ (t.upsertAll rs m hm).find (key s) = some s := by
    rw [find_eq_some, and_iff_left rfl]
  rw [hiff, find_upsertAll _ hrs]
  constructor
  · intro h
    cases hr : rs.find? fun r => key r = key s with
    | none =>
      rw [hr] at h
      exact .inl ⟨(find_eq_some.1 h).1, by simpa using List.find?_eq_none.1 hr⟩
    | some r =>
      obtain ⟨hmem, hk⟩ := (find_eq_some (t := ⟨rs, hrs⟩)).1 hr
      rw [hr] at h
      refine .inr ⟨r, hmem, ?_⟩
      cases hold : t.find (key s) with
      | none => exact .inl ⟨hk ▸ hold, by simpa [hold] using h.symm⟩
      | some old =>
        obtain ⟨hmem', hk'⟩ := find_eq_some.1 hold
        exact .inr ⟨old, hmem', hk'.trans hk.symm, by simpa [hold] using h.symm⟩
  · rintro (⟨hs, hne⟩ | ⟨r, hr, ⟨hnone, rfl⟩ | ⟨old, hold, hk, rfl⟩⟩)
    · have hnone : (rs.find? fun r => key r = key s) = none := by
        simpa using hne
      rw [hnone]
      exact find_of_mem hs
    · have hfind := find_of_mem (t := ⟨rs, hrs⟩) hr
      change (rs.find? fun r' => key r' = key s) = some s at hfind
      rw [hfind, hnone]
      rfl
    · have hfind := find_of_mem (t := ⟨rs, hrs⟩) hr
      change (rs.find? fun r' => key r' = key r) = some r at hfind
      rw [hm, hk, hfind, ← hk, find_of_mem hold]
      rfl

/-- A row that is inserted is there, or merged with the one that had its key. -/
theorem mem_upsertAll_of_insert {t : Table key} {rs : List ρ} (hrs : (rs.map key).Nodup)
    {m : ρ → ρ → ρ} {hm : ∀ r s, key (m r s) = key s} {r : ρ} (hr : r ∈ rs) :
    r ∈ t.upsertAll rs m hm ∨ ∃ old ∈ t, key old = key r ∧ m r old ∈ t.upsertAll rs m hm := by
  cases hold : t.find (key r) with
  | none => exact .inl ((mem_upsertAll hrs).2 (.inr ⟨r, hr, .inl ⟨hold, rfl⟩⟩))
  | some old =>
    obtain ⟨hmem, hk⟩ := find_eq_some.1 hold
    exact .inr ⟨old, hmem, hk, (mem_upsertAll hrs).2 (.inr ⟨r, hr, .inr ⟨old, hmem, hk, rfl⟩⟩)⟩

/-! ## Maps -/

/-- The row that is in the place of `s` after `m[key r] = r`. -/
def replace (_ : Table key) (r s : ρ) : ρ := if key s = key r then r else s

theorem key_replace (t : Table key) (r s : ρ) : key (t.replace r s) = key s := by
  unfold replace
  split
  · rename_i h
    exact h.symm
  · rfl

/-- `m[key r] = r`. -/
def put (t : Table key) (r : ρ) : Table key := t.upsert r (t.replace r) (t.key_replace r)

theorem mem_put {t : Table key} {r s : ρ} : s ∈ t.put r ↔ s = r ∨ s ∈ t ∧ key s ≠ key r := by
  have hiff : s ∈ t.put r ↔ (t.put r).find (key s) = some s := by
    rw [find_eq_some, and_iff_left rfl]
  rw [hiff, put, find_upsert]
  by_cases hk : key r = key s
  · have hnew : (t.find (key s)).elim r (t.replace r) = r := by
      cases hfind : t.find (key s) with
      | none => rfl
      | some old => exact if_pos ((find_key hfind).trans hk.symm)
    rw [if_pos hk, hnew, Option.some.injEq, eq_comm]
    exact ⟨.inl, fun h => h.resolve_right fun h' => h'.2 hk.symm⟩
  · rw [if_neg hk, find_eq_some, and_iff_left rfl]
    refine ⟨fun h => .inr ⟨h, Ne.symm hk⟩, ?_⟩
    rintro (rfl | h)
    · exact absurd rfl hk
    · exact h.1

/-- The rows of another table, one after the other. -/
def putAll (t u : Table key) : Table key := u.rows.foldl put t

theorem mem_putAll {t u : Table key} {s : ρ} :
    s ∈ t.putAll u ↔ s ∈ u ∨ s ∈ t ∧ ∀ r ∈ u, key r ≠ key s := by
  obtain ⟨rows, hrows⟩ := u
  change s ∈ rows.foldl put t ↔ s ∈ rows ∨ s ∈ t ∧ ∀ r ∈ rows, key r ≠ key s
  induction rows generalizing t with
  | nil => simp
  | cons r rows ih =>
    obtain ⟨hr, hrows⟩ := List.nodup_cons.1 (List.map_cons ▸ hrows)
    rw [List.foldl_cons, ih hrows, mem_put, List.forall_mem_cons, List.mem_cons]
    constructor
    · rintro (hs | ⟨rfl | ⟨hs, hne⟩, hrest⟩)
      · exact .inl (.inr hs)
      · exact .inl (.inl rfl)
      · exact .inr ⟨hs, Ne.symm hne, hrest⟩
    · rintro ((rfl | hs) | ⟨hs, hne, hrest⟩)
      · refine .inr ⟨.inl rfl, fun r' hr' hk => hr ?_⟩
        exact hk ▸ List.mem_map_of_mem hr'
      · exact .inl hs
      · exact .inr ⟨.inr ⟨hs, Ne.symm hne⟩, hrest⟩

end Table

end Aggregator
