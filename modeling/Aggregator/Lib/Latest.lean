/-
  The latest row of a history of writes.

  A history is a list of rows, the last one written first.  A table in which
  every write replaces the row with its key holds the first row of the list for
  each key (`Table.Holds`).

  `Table.argmax_eq`: among the rows that a property of the key selects, the
  one with the greatest time is the same in the table and in the history, where
  of two rows with the same time the one written last counts.
-/
import Aggregator.Lib.Table
import Mathlib.Data.List.MinMax

namespace Aggregator

universe u v w
variable {κ : Type u} {ρ : Type v} {τ : Type w} [LinearOrder τ] {time : ρ → τ}

/-- A row that is later than all others is the latest. -/
theorem argmax_eq_of_lt {l : List ρ} {m : ρ} (hm : m ∈ l)
    (hlt : ∀ a ∈ l, a = m ∨ time a < time m) : l.argmax time = some m := by
  cases h : l.argmax time with
  | none =>
    rw [List.argmax_eq_none] at h
    exact absurd hm (h ▸ List.not_mem_nil)
  | some b =>
    rcases hlt b (List.argmax_mem h) with rfl | hb
    · rfl
    · exact absurd (List.le_of_mem_argmax hm h) (not_le.2 hb)

/-- The latest row is the latest of any selection it belongs to. -/
theorem argmax_filter {l : List ρ} {m : ρ} (h : l.argmax time = some m) {q : ρ → Bool}
    (hq : q m) : (l.filter q).argmax time = some m := by
  induction l generalizing m with
  | nil => cases h
  | cons a l ih =>
    rw [List.argmax_cons] at h
    cases hl : l.argmax time with
    | none =>
      rw [hl] at h
      obtain rfl := Option.some.inj h
      rw [List.argmax_eq_none] at hl
      rw [hl, List.filter_cons_of_pos hq]
      rfl
    | some c =>
      simp only [hl] at h
      by_cases hac : time a < time c
      · -- the row is in the tail, and stays the latest if the head is selected
        rw [if_pos hac] at h
        obtain rfl := Option.some.inj h
        have hc := ih hl hq
        by_cases ha : q a
        · rw [List.filter_cons_of_pos ha, List.argmax_cons, hc]
          simp only [hac, ↓reduceIte]
        · rw [List.filter_cons_of_neg ha, hc]
      · rw [if_neg hac] at h
        obtain rfl := Option.some.inj h
        rw [List.filter_cons_of_pos hq, List.argmax_cons]
        cases hf : (l.filter q).argmax time with
        | none => rfl
        | some d =>
          have hd := List.le_of_mem_argmax (List.mem_of_mem_filter (List.argmax_mem hf)) hl
          have had : ¬time a < time d := fun h => hac (h.trans_le hd)
          simp only [had, ↓reduceIte]

variable {key : ρ → κ} [DecidableEq κ]

/-- The latest row of a history is the last one written with its key. -/
theorem find?_argmax {l : List ρ} {p : ρ → Bool} (hp : ∀ a b, key a = key b → p a = p b)
    (ht : ∀ a b, key a = key b → time a = time b) {m : ρ}
    (h : (l.filter p).argmax time = some m) : l.find? (key · = key m) = some m := by
  induction l generalizing m with
  | nil => cases h
  | cons a l ih =>
    by_cases ha : p a
    · rw [List.filter_cons_of_pos ha, List.argmax_cons] at h
      cases hl : (l.filter p).argmax time with
      | none =>
        rw [hl] at h
        obtain rfl := Option.some.inj h
        exact List.find?_cons_of_pos (by simp)
      | some c =>
        simp only [hl] at h
        by_cases hac : time a < time c
        · rw [if_pos hac] at h
          obtain rfl := Option.some.inj h
          have hkey : key a ≠ key c := fun hk => hac.ne (ht a c hk)
          rw [List.find?_cons_of_neg (by simpa using hkey), ih hl]
        · rw [if_neg hac] at h
          obtain rfl := Option.some.inj h
          exact List.find?_cons_of_pos (by simp)
    · rw [List.filter_cons_of_neg ha] at h
      have hm := (List.mem_filter.1 (List.argmax_mem h)).2
      have hkey : key a ≠ key m := fun hk => ha (hp a m hk ▸ hm)
      rw [List.find?_cons_of_neg (by simpa using hkey), ih h]

namespace Table

/-- The table has, for each key, the row that was written last. -/
def Holds (t : Table key) (l : List ρ) : Prop := ∀ k, t.find k = l.find? (key · = k)

theorem Holds.nil : (Table.empty : Table key).Holds [] := fun _ => rfl

/-- One more write. -/
theorem Holds.upsert {t : Table key} {l : List ρ} (h : t.Holds l) {r : ρ} {m : ρ → ρ}
    (hm : ∀ s, key (m s) = key s) (hr : ∀ s, key s = key r → m s = r) :
    (t.upsert r m hm).Holds (r :: l) := by
  intro k
  rw [find_upsert]
  by_cases hk : key r = k
  · rw [if_pos hk, List.find?_cons_of_pos (by simpa using hk)]
    cases hs : t.find k with
    | none => rfl
    | some s => exact congrArg some (hr s ((find_key hs).trans hk.symm))
  · rw [if_neg hk, List.find?_cons_of_neg (by simpa using hk), h k]

theorem Holds.mem {t : Table key} {l : List ρ} (h : t.Holds l) {r : ρ} (hr : r ∈ t) : r ∈ l := by
  have := find_of_mem hr
  rw [h] at this
  exact List.mem_of_find?_eq_some this

/-- **The latest row** of a selection by key is that of the history. -/
theorem argmax_eq {t : Table key} {l : List ρ} (h : t.Holds l) {p : ρ → Bool}
    (hp : ∀ a b, key a = key b → p a = p b) (ht : ∀ a b, key a = key b → time a = time b)
    (hkey : ∀ a b, p a → p b → time a = time b → key a = key b) :
    (t.rows.filter p).argmax time = (l.filter p).argmax time := by
  cases hl : (l.filter p).argmax time with
  | none =>
    rw [List.argmax_eq_none, List.filter_eq_nil_iff] at hl ⊢
    exact fun a ha => hl a (h.mem ha)
  | some m =>
    have hfind := find?_argmax hp ht hl
    rw [← h] at hfind
    have hm := (List.mem_filter.1 (List.argmax_mem hl)).2
    refine argmax_eq_of_lt (List.mem_filter.2 ⟨(find_eq_some.1 hfind).1, hm⟩) fun a ha => ?_
    obtain ⟨ha, hpa⟩ := List.mem_filter.1 ha
    have hle := List.le_of_mem_argmax (List.mem_filter.2 ⟨h.mem ha, hpa⟩) hl
    rcases hle.eq_or_lt with heq | hlt
    · exact .inl (eq_of_key ha (find_eq_some.1 hfind).1 (hkey a m hpa hm heq))
    · exact .inr hlt

end Table

end Aggregator
