/-
  Readers: functions that take a value off the front of some input.

  `readMany read n` is the loop that reads `n` values, one after another, up to the
  first error.

  * `readMany_add`: a loop is its first rounds and then the others;
  * `readMany_eq_error`: it fails if a round does that the rounds before it lead to.
-/
import Mathlib.Data.List.Basic

namespace Aggregator

variable {ε σ α : Type} {read : σ → Except ε (α × σ)}

def readMany (read : σ → Except ε (α × σ)) : ℕ → List α → σ → Except ε (List α × σ)
  | 0, items, s => .ok (items, s)
  | n + 1, items, s => do
    let (item, s) ← read s
    readMany read n (items ++ [item]) s

@[simp] theorem readMany_zero (items : List α) (s : σ) : readMany read 0 items s = .ok (items, s) :=
  rfl

theorem readMany_succ_ok {s s' : σ} {item : α} (h : read s = .ok (item, s')) (n : ℕ)
    (items : List α) : readMany read (n + 1) items s = readMany read n (items ++ [item]) s' := by
  rw [readMany, h]
  rfl

theorem readMany_succ_error {s : σ} {e : ε} (h : read s = .error e) (n : ℕ) (items : List α) :
    readMany read (n + 1) items s = .error e := by
  rw [readMany, h]
  rfl

theorem readMany_add (m n : ℕ) (items : List α) (s : σ) :
    readMany read (m + n) items s =
      (readMany read m items s >>= fun r => readMany read n r.1 r.2) := by
  induction m generalizing items s with
  | zero => rw [Nat.zero_add]; rfl
  | succ m ih =>
    rw [Nat.succ_add]
    cases h : read s with
    | error e =>
      rw [readMany_succ_error h, readMany_succ_error h]
      rfl
    | ok r => rw [readMany_succ_ok h, readMany_succ_ok h, ih]

/-- A round that fails is the end of the loop. -/
theorem readMany_of_error {i n : ℕ} (hi : i < n) {items items' : List α} {s s' : σ} {e : ε}
    (h : readMany read i items s = .ok (items', s')) (he : read s' = .error e) :
    readMany read n items s = .error e := by
  obtain ⟨k, rfl⟩ : ∃ k, n = i + (k + 1) := ⟨n - i - 1, by omega⟩
  rw [readMany_add, h]
  exact readMany_succ_error he k items'

theorem readMany_eq_error {n : ℕ} {items : List α} {s : σ} {e : ε} :
    readMany read n items s = .error e ↔
      ∃ i < n, ∃ items' s', readMany read i items s = .ok (items', s') ∧ read s' = .error e := by
  constructor
  · intro h
    induction n generalizing items s with
    | zero => cases h
    | succ n ih =>
      cases hs : read s with
      | error e' =>
        rw [readMany_succ_error hs] at h
        cases h
        exact ⟨0, n.succ_pos, items, s, rfl, hs⟩
      | ok r =>
        rw [readMany_succ_ok hs] at h
        obtain ⟨i, hi, items', s', hok, he⟩ := ih h
        exact ⟨i + 1, Nat.succ_lt_succ hi, items', s', (readMany_succ_ok hs i items).trans hok, he⟩
  · rintro ⟨i, hi, items', s', hok, he⟩
    exact readMany_of_error hi hok he

end Aggregator
